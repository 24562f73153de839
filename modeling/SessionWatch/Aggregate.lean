import SessionWatch.Event

/-!
An aggregate stages the events of one entity until they are taken as a batch. Each staged
event carries the name and the id of its aggregate.
-/

namespace SessionWatch

structure Aggregate where
  id : String
  name : String
  staged : List Event := []

namespace Aggregate

def metadata (a : Aggregate) : Labels :=
  .ofList [("aggregate-name", a.name), ("aggregate-id", a.id)]

def add (a : Aggregate) (stamp : Stamp) (fact : Fact) : Aggregate :=
  { a with staged := a.staged ++ [⟨stamp, fact, a.metadata⟩] }

def clear (a : Aggregate) : Aggregate := { a with staged := [] }

def take (a : Aggregate) : List Event × Aggregate := (a.staged, a.clear)

@[simp] theorem staged_add (a : Aggregate) (stamp : Stamp) (fact : Fact) :
    (a.add stamp fact).staged = a.staged ++ [⟨stamp, fact, a.metadata⟩] := rfl

@[simp] theorem metadata_add (a : Aggregate) (stamp : Stamp) (fact : Fact) :
    (a.add stamp fact).metadata = a.metadata := rfl

@[simp] theorem metadata_clear (a : Aggregate) : a.clear.metadata = a.metadata := rfl

@[simp] theorem staged_clear (a : Aggregate) : a.clear.staged = [] := rfl

end Aggregate

end SessionWatch
