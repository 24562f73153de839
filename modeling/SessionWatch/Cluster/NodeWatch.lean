import SessionWatch.Cluster.Callback
import SessionWatch.Cluster.Schema
import SessionWatch.Event

/-!
Facts from callbacks about nodes. Only nodes with all the labels to look for are observed; a
callback about such a node gives one batch of facts.
-/

namespace SessionWatch.Cluster.NodeWatch

def majorLabel : String := "nvidia.com/cuda.driver.major"

def minorLabel : String := "nvidia.com/cuda.driver.minor"

def revisionLabel : String := "nvidia.com/cuda.driver.rev"

def part (labels : Labels) (label : String) : Result String :=
  match labels.get? label with
  | some v => .ok v
  | none => .error ((Report.of (.object .driverVersionMissing)).attach (.missingLabel label))

/-- Major, minor and revision of the driver, of which each must be there. -/
def driverVersion (labels : Labels) : Result String := do
  let major ← part labels majorLabel
  let minor ← part labels minorLabel
  let revision ← part labels revisionLabel
  pure (major ++ "." ++ minor ++ "." ++ revision)

/-- Whether the labels have every pair that is looked for. -/
def isObserved (labels observee : Labels) : Bool :=
  observee.entries.all fun e => labels.get? e.1 == some e.2

theorem isObserved_iff {labels observee : Labels} : isObserved labels observee = true ↔
    ∀ k v, observee.get? k = some v → labels.get? k = some v := by
  simp only [isObserved, List.all_eq_true, beq_iff_eq, Prod.forall, Table.get?_eq_some_iff]

def node (schema : Schema) (o : Object) : Result Node :=
  if schema.node o then do
    let name ← o.properName
    pure ⟨name, "", o.labels⟩
  else .error (.of (.object (.unreadable "Node" "not a v1 Node")))

def observed? (schema : Schema) (observee : Labels) (o : Object) : Option Node :=
  match node schema o with
  | .ok n => if isObserved n.labels observee then some n else none
  | .error _ => none

structure Batch where
  node : String
  facts : List Fact
  deriving DecidableEq

def addition (n : Node) : Batch :=
  let n := { n with driverVersion := (driverVersion n.labels).toOption.getD "" }
  ⟨n.name, [.node .add n, .node .updateLabels n, .node .recordProvision n]⟩

/-- Without a driver version the labels cache has to wait. -/
def update (n : Node) : Batch :=
  match driverVersion n.labels with
  | .ok v =>
    let n := { n with driverVersion := v }
    ⟨n.name, [.node .update n, .node .updateLabels n]⟩
  | .error _ => ⟨n.name, [.node .update n]⟩

def deletion (n : Node) : Batch := ⟨n.name, [.node .delete n]⟩

def batch? (schema : Schema) (observee : Labels) : Callback → Option Batch
  | .added o => (observed? schema observee o).map addition
  | .updated _ o => (observed? schema observee o).map update
  | .deleted o => (observed? schema observee o).map deletion
  | .failed _ => none

end SessionWatch.Cluster.NodeWatch
