import SessionWatch.Cluster.Callback
import SessionWatch.Cluster.Schema
import SessionWatch.Event

/-!
Facts from callbacks about pods. A pod that belongs to a session and is not opted out moves
through scheduled, ready and deleted by its phase, its conditions and its containers.
-/

namespace SessionWatch.Cluster.PodWatch

/-- Which pods belong to sessions. -/
structure Rules where
  /-- The label that holds the session id. -/
  sessionLabel : String := "sessionId"
  /-- The label that opts a pod out when it says `false`. -/
  managedLabel : String := "managed"
  /-- Whether pods of no session are passed over when they are added. -/
  filterAdded : Bool := false
  deriving DecidableEq

structure Observed where
  pod : Pod
  managed : Bool
  phase : String
  /-- Types and statuses. -/
  conditions : List (String × String)
  deleting : Bool
  /-- Whether a container has terminated. -/
  crashed : Bool
  deriving DecidableEq

namespace Observed

def isTrue (o : Observed) (condition : String) : Bool := o.conditions.contains (condition, "True")

def inSession (o : Observed) : Bool := o.pod.sessionId != "" && o.managed

def readyConditions : List String := ["Initialized", "PodScheduled", "ContainersReady", "Ready"]

def isReady (o : Observed) : Bool := readyConditions.all o.isTrue

def isDeletion : Fact → Bool
  | .pod .delete _ => true
  | _ => false

/-- The changes of a running pod. Readiness and termination are judged apart, but a pod is
deleted once at most. -/
def runningFacts (o : Observed) : List Fact :=
  let readiness : List Fact :=
    if o.isReady then
      if o.deleting then [.pod .delete o.pod.identity] else [.pod .ready o.pod]
    else []
  if o.crashed && !readiness.any isDeletion then readiness ++ [.pod .delete o.pod.identity]
  else readiness

def facts (o : Observed) : List Fact :=
  match o.phase with
  | "Failed" | "Succeeded" | "Unknown" => [.pod .delete o.pod.identity]
  | "Pending" => if o.isTrue "PodScheduled" then [.pod .recordSchedule o.pod.identity] else []
  | "Running" => o.runningFacts
  | _ => []

end Observed

def items : Json → List Json
  | .arr items => items
  | _ => []

def textOf (j : Option Json) (name : String) : String :=
  ((j.bind (·.field? name)).bind Json.text?).getD ""

def listOf (j : Option Json) (name : String) : List Json :=
  ((j.bind (·.field? name)).map items).getD []

/-- Whether a container status tells of a termination. -/
def hasTerminated (status : Json) : Bool :=
  match (status.field? "state").bind (·.field? "terminated") with
  | some (.obj _) => true
  | _ => false

theorem hasTerminated_iff {status : Json} : hasTerminated status = true ↔
    ∃ state fields, status.field? "state" = some state ∧
      state.field? "terminated" = some (.obj fields) := by
  unfold hasTerminated
  cases status.field? "state" with
  | none => simp
  | some state =>
    simp only [Option.bind_some, Option.some.injEq, exists_and_left, exists_eq_left']
    split <;> simp_all

def contentField (o : Object) (name : String) : Option Json := (Json.obj o.content).field? name

def read (schema : Schema) (rules : Rules) (o : Object) : Result Observed :=
  if schema.pod o then do
    let name ← o.properName
    let spec := contentField o "spec"
    let status := contentField o "status"
    pure
      { pod :=
          { name := name
            ns := o.metadata.ns.getD ""
            sessionId := (o.labels.get? rules.sessionLabel).getD ""
            nodeName := textOf spec "nodeName"
            ip := textOf status "podIP" }
        managed := o.labels.get? rules.managedLabel != some "false"
        phase := textOf status "phase"
        conditions := (listOf status "conditions").map fun c =>
          (textOf (some c) "type", textOf (some c) "status")
        deleting := o.metadata.deleting
        crashed := (listOf status "containerStatuses").any hasTerminated }
  else .error (.of (.object (.unreadable "Pod" "not a v1 Pod")))

def observed? (schema : Schema) (rules : Rules) (o : Object) : Option Observed :=
  (read schema rules o).toOption

/-- The facts of a callback about an object; each is published on its own. -/
def facts (schema : Schema) (rules : Rules) : Callback → List Fact
  | .added o =>
    match observed? schema rules o with
    | some p => if rules.filterAdded && !p.inSession then [] else [.pod .add p.pod.identity]
    | none => []
  | .updated _ o =>
    match observed? schema rules o with
    | some p => if p.inSession then p.facts else []
    | none => []
  | .deleted _ => []
  | .failed message => [.podWatchFailed message]

end SessionWatch.Cluster.PodWatch
