import SessionWatch.Report
import SessionWatch.Text.Json.Reader

/-!
Tasks for the session queue: their payloads as JSON text, and the fields of a stream entry.
The reader of the queue finds the payload fields by name.
-/

namespace SessionWatch

namespace Json

def onlyField? (fields : List (String × Json)) (name : String) : Option Json :=
  match fields.filter fun f => f.1 == name with
  | [f] => some f.2
  | _ => none

/-- The values of named fields: of an object that has each once among any others, or of an
array of just so many. -/
def slots? (names : List String) : Json → Option (List Json)
  | .arr items => if items.length = names.length then some items else none
  | .obj fields => names.mapM (onlyField? fields)
  | _ => none

def text? : Json → Option String
  | .str s => some s
  | _ => none

def word? : Json → Option Int64
  | .int i => if Int64.minValue.toInt ≤ i ∧ i ≤ Int64.maxValue.toInt then some (.ofInt i) else none
  | _ => none

end Json

namespace Session

/-- A session whose pod is ready on its node. -/
structure Ready where
  sessionId : String
  nodeName : String
  nodeProvisioned : Int64
  podScheduled : Int64
  podIp : String
  deriving DecidableEq

namespace Ready

def names : List String :=
  ["sessionId", "nodeName", "nodeProvisionTimeStamp", "podScheduleTimeStamp", "podInternalIp"]

def toJson (r : Ready) : Json :=
  .obj (names.zip
    [.str r.sessionId, .str r.nodeName, .int r.nodeProvisioned.toInt, .int r.podScheduled.toInt,
      .str r.podIp])

def encode (r : Ready) : String := r.toJson.render

def ofJson? (j : Json) : Option Ready :=
  match j.slots? names with
  | some [s, n, tn, tp, ip] =>
    match s.text?, n.text?, tn.word?, tp.word?, ip.text? with
    | some s, some n, some tn, some tp, some ip => some ⟨s, n, tn, tp, ip⟩
    | _, _, _, _, _ => none
  | _ => none

def decode? (s : String) : Option Ready := (Json.parse? s).bind ofJson?

end Ready

structure Deletable where
  sessionId : String
  deriving DecidableEq

namespace Deletable

def names : List String := ["sessionId"]

def toJson (d : Deletable) : Json := .obj (names.zip [.str d.sessionId])

def encode (d : Deletable) : String := d.toJson.render

def ofJson? (j : Json) : Option Deletable :=
  match j.slots? names with
  | some [s] => s.text?.map Deletable.mk
  | _ => none

def decode? (s : String) : Option Deletable := (Json.parse? s).bind ofJson?

end Deletable

inductive TaskKind where
  | enqueue
  | delete
  deriving DecidableEq

namespace TaskKind

def name : TaskKind → String
  | .enqueue => "EnqueueSession"
  | .delete => "DeleteSession"

def ofName? (s : String) : Option TaskKind := [enqueue, delete].find? fun k => k.name == s

def encode (k : TaskKind) : String := (Json.str k.name).render

/-- A name, or an object with that name alone over a null. -/
def ofJson? : Json → Option TaskKind
  | .str s => ofName? s
  | .obj [(s, .null)] => ofName? s
  | _ => none

def decode? (s : String) : Option TaskKind := (Json.parse? s).bind ofJson?

end TaskKind

structure Task where
  kind : TaskKind
  /-- The payload as JSON text. -/
  info : String
  /-- Seconds by the clock of the backend. -/
  created : Int64
  deriving DecidableEq

/-- The fields of a stream entry, in the order that its reader expects. -/
def Task.fields (t : Task) : List (String × String) :=
  [("TaskType", t.kind.name), ("TaskInfo", t.info),
    ("TaskCreateTimeStamp", Decimal.textOfInt t.created.toInt)]

/-- What a handler asks of the sessions. -/
inductive Call where
  | setNode (node : String) (time : Int64)
  | setPod (session : String) (time : Int64)
  | getNode (node : String)
  | getPod (session : String)
  | ready (r : Ready)
  | deletable (d : Deletable)
  deriving DecidableEq

end Session

end SessionWatch
