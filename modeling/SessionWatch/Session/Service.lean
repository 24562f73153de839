import SessionWatch.Storage.FanOut

/-!
Sessions between their node, their pod and the session queue. The times at which nodes were
provisioned and pods scheduled wait in the time cache; tasks go to streams of the backends.
-/

namespace SessionWatch.Session

def nodeKey (node : String) : String := "NodeProvisionTimeStamp." ++ node

def podKey (session : String) : String := "PodScheduleTimeStamp." ++ session

structure Streams where
  enqueue : String
  delete : String
  deriving DecidableEq

def setNode (node : String) (time : Int64) : Plan Unit := Plan.remember (nodeKey node) time

def setPod (session : String) (time : Int64) : Plan Unit := Plan.remember (podKey session) time

/-- The time under a key, or a report that names the key. -/
def timeUnder (key : String) : Plan (Result Int64) := do
  match ← Plan.consult key with
  | some time => pure (.ok time)
  | none => pure (.error (.of (.session (.keyNotFound key))))

def getNode (node : String) : Plan (Result Int64) := timeUnder (nodeKey node)

def getPod (session : String) : Plan (Result Int64) := timeUnder (podKey session)

/-- Append a task to a stream of every backend, stamped with the time that the backends tell;
without a time from all of them nothing is appended. -/
def push (backends : Nat) (stream : String) (kind : TaskKind) (info : String) :
    Plan (Result String) := do
  match ← Storage.fanOut backends .time with
  | .error r => pure (.error (r.because (.session .storage)))
  | .ok time =>
    let task : Task := ⟨kind, info, time⟩
    match ← Storage.fanOut backends (.append stream Storage.automaticId task.fields) with
    | .error r => pure (.error ((r.because (.session .storage)).attach (.stream stream)))
    | .ok id => pure (.ok id)

def setReady (backends : Nat) (streams : Streams) (r : Ready) : Plan (Result String) :=
  push backends streams.enqueue .enqueue r.encode

/-- The time at which the pod was scheduled is forgotten once the task is written. -/
def setDeletable (backends : Nat) (streams : Streams) (d : Deletable) : Plan (Result String) := do
  match ← push backends streams.delete .delete d.encode with
  | .error r => pure (.error r)
  | .ok id =>
    let _ ← Plan.forget (podKey d.sessionId)
    pure (.ok id)

end SessionWatch.Session
