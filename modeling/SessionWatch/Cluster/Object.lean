import SessionWatch.Session.Task
import SessionWatch.Time.Rfc3339

/-!
Objects of the cluster as the watch delivers them: metadata that is known and contents that
are not looked into.
-/

namespace SessionWatch

/-- Forms that a JSON value can be held to. Fields that a form does not name are free. -/
inductive Shape where
  | free
  | text
  | bool
  | int (bits : Nat)
  | time
  | list (item : Shape)
  | map (value : Shape)
  | record (fields : List (String × Shape))
  | either (first second : Shape)

namespace Shape

def fitsSigned (bits : Nat) (i : Int) : Bool :=
  let bound : Int := (1 <<< (bits - 1) : Nat)
  i < bound && -bound ≤ i

mutual

def accepts : Shape → Json → Bool
  | .free, _ => true
  | .text, .str _ => true
  | .bool, .bool _ => true
  | .int bits, .int i => fitsSigned bits i
  | .time, .str s => Rfc3339.isTime s
  | .list item, .arr items => items.all (accepts item)
  | .map value, .obj fields => fields.all fun f => accepts value f.2
  | .record shapes, .obj fields => acceptsFields shapes fields
  | .either first second, j => accepts first j || accepts second j
  | _, _ => false

/-- Whether every field with a form is null or has it. -/
def acceptsFields : List (String × Shape) → List (String × Json) → Bool
  | [], _ => true
  | (name, shape) :: shapes, fields =>
    (fields.all fun f => f.1 != name || f.2 == .null || accepts shape f.2) &&
      acceptsFields shapes fields

end

/-- Fields of one form. -/
def each (shape : Shape) (names : List String) : List (String × Shape) :=
  names.map fun name => (name, shape)

end Shape

namespace Cluster

structure Metadata where
  name : Option String := none
  generateName : Option String := none
  ns : Option String := none
  version : Option String := none
  labels : Option Labels := none
  /-- Whether a time of deletion is set. -/
  deleting : Bool := false
  deriving DecidableEq

structure Object where
  /-- The API version and the kind, where both are given. -/
  apiKind : Option (String × String) := none
  metadata : Metadata := {}
  /-- All other fields. -/
  content : List (String × Json) := []

namespace Metadata

def ownerShape : Shape := .record
  (Shape.each .text ["apiVersion", "kind", "name", "uid"] ++
    Shape.each .bool ["blockOwnerDeletion", "controller"])

def managedShape : Shape := .record
  (Shape.each .text ["apiVersion", "fieldsType", "manager", "operation", "subresource"] ++
    [("fieldsV1", .free), ("time", .time)])

def shape : Shape := .record
  (Shape.each .text
      ["name", "namespace", "generateName", "resourceVersion", "selfLink", "uid"] ++
    Shape.each (.map .text) ["labels", "annotations"] ++
    Shape.each .time ["deletionTimestamp", "creationTimestamp"] ++
    Shape.each (.int 64) ["generation", "deletionGracePeriodSeconds"] ++
    [("ownerReferences", .list ownerShape), ("finalizers", .list .text),
      ("managedFields", .list managedShape)])

def textField (j : Json) (name : String) : Option String := (j.field? name).bind Json.text?

def labelsOf : Json → Option Labels
  | .obj fields => some (.ofList (fields.filterMap fun f => f.2.text?.map fun v => (f.1, v)))
  | _ => none

def ofJson? (j : Json) : Option Metadata :=
  if shape.accepts j then
    some
      { name := textField j "name"
        generateName := textField j "generateName"
        ns := textField j "namespace"
        version := textField j "resourceVersion"
        labels := (j.field? "labels").bind labelsOf
        deleting := (textField j "deletionTimestamp").isSome }
  else none

end Metadata

namespace Object

def apiKindOf (j : Json) : Option (String × String) :=
  match j.field? "apiVersion", j.field? "kind" with
  | some (.str v), some (.str k) => some (v, k)
  | _, _ => none

def reserved : List String := ["apiVersion", "kind", "metadata"]

def contentOf : Json → List (String × Json)
  | .obj fields => fields.filter fun f => !reserved.contains f.1
  | _ => []

/-- An object without metadata has empty ones. -/
def ofJson? (j : Json) : Option Object :=
  match j with
  | .obj _ =>
    match j.field? "metadata" with
    | none => some ⟨apiKindOf j, {}, contentOf j⟩
    | some m => (Metadata.ofJson? m).map fun m => ⟨apiKindOf j, m, contentOf j⟩
  | _ => none

/-- Its name, else what its name is to be generated from, else nothing. -/
def displayName (o : Object) : String :=
  (o.metadata.name.or o.metadata.generateName).getD ""

def labels (o : Object) : Labels := o.metadata.labels.getD ∅

/-- What tells an object from the others of its kind: namespace and name with a slash
between. -/
def key (o : Object) : String := o.metadata.ns.getD "" ++ "/" ++ o.displayName

end Object

end Cluster

end SessionWatch
