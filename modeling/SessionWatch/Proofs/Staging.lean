import Mathlib.Data.List.Nodup
import SessionWatch.Aggregate

/-!
The events of an aggregate over its whole life. Whatever is staged, taken and cleared, every event
that is added leaves the aggregate once at most: in the batch that is taken next, or with what is
cleared before that. Nothing is lost but what is cleared, and nothing is told twice.
-/

namespace SessionWatch

inductive Use where
  | add (stamp : Stamp) (fact : Fact)
  | take
  | clear

/-- How the staged events leave their aggregate, all at once. -/
inductive Emptying where
  | taken (events : List Event)
  | cleared (events : List Event)

namespace Emptying

def events : Emptying → List Event
  | taken es => es
  | cleared es => es

def batch? : Emptying → Option (List Event)
  | taken es => some es
  | cleared _ => none

end Emptying

namespace Use

variable (m : Labels)

def added : List Use → List Event
  | [] => []
  | .add stamp fact :: us => ⟨stamp, fact, m⟩ :: added us
  | .take :: us => added us
  | .clear :: us => added us

/-- Whether what is staged before these uses is cleared: the first of them that empties the aggregate
clears it. -/
def clearsFirst : List Use → Bool
  | [] => false
  | .add .. :: us => clearsFirst us
  | .take :: _ => false
  | .clear :: _ => true

def kept : List Use → List Event
  | [] => []
  | .add stamp fact :: us => if clearsFirst us then kept us else ⟨stamp, fact, m⟩ :: kept us
  | .take :: us => kept us
  | .clear :: us => kept us

theorem metadata_of_mem_added {us : List Use} {e : Event} (he : e ∈ added m us) :
    e.metadata = m := by
  induction us with
  | nil => cases he
  | cons u us ih =>
    cases u with
    | add stamp fact =>
      rcases List.mem_cons.1 he with rfl | he
      · rfl
      · exact ih he
    | take => exact ih he
    | clear => exact ih he

end Use

namespace Aggregate

/-- The aggregate after a use, and the emptying that comes with it. -/
def use (a : Aggregate) : Use → Aggregate × List Emptying
  | .add stamp fact => (a.add stamp fact, [])
  | .take => (a.take.2, [.taken a.take.1])
  | .clear => (a.clear, [.cleared a.staged])

def useAll (a : Aggregate) : List Use → Aggregate × List Emptying
  | [] => (a, [])
  | u :: us => (((a.use u).1.useAll us).1, (a.use u).2 ++ ((a.use u).1.useAll us).2)

def batches (a : Aggregate) (us : List Use) : List (List Event) :=
  (a.useAll us).2.filterMap Emptying.batch?

variable (a : Aggregate) (stamp : Stamp) (fact : Fact) (us : List Use)

@[simp] theorem useAll_nil : a.useAll [] = (a, []) := rfl

@[simp] theorem useAll_add : a.useAll (.add stamp fact :: us) = (a.add stamp fact).useAll us := rfl

@[simp] theorem useAll_take : a.useAll (.take :: us) =
    ((a.clear.useAll us).1, .taken a.staged :: (a.clear.useAll us).2) := rfl

@[simp] theorem useAll_clear : a.useAll (.clear :: us) =
    ((a.clear.useAll us).1, .cleared a.staged :: (a.clear.useAll us).2) := rfl

/-- Added events are in the order in which they leave the aggregate, and behind them those that are
still staged. -/
theorem events_append_staged :
    (a.useAll us).2.flatMap Emptying.events ++ (a.useAll us).1.staged =
      a.staged ++ Use.added a.metadata us := by
  induction us generalizing a with
  | nil => simp [Use.added]
  | cons u us ih =>
    cases u with
    | add stamp fact => simp [ih, Use.added]
    | take => simp [ih, Use.added, Emptying.events]
    | clear => simp [ih, Use.added, Emptying.events]

theorem batches_append_staged :
    (a.batches us).flatten ++ (a.useAll us).1.staged =
      (if Use.clearsFirst us then [] else a.staged) ++ Use.kept a.metadata us := by
  induction us generalizing a with
  | nil => simp [batches, Use.clearsFirst, Use.kept]
  | cons u us ih =>
    simp only [batches] at ih ⊢
    cases u with
    | add stamp fact =>
      rw [useAll_add, ih]
      cases hclears : Use.clearsFirst us <;> simp [Use.clearsFirst, Use.kept, hclears]
    | take => simp [ih, Use.clearsFirst, Use.kept, Emptying.batch?]
    | clear => simp [List.filterMap_cons, ih, Use.clearsFirst, Use.kept, Emptying.batch?]

theorem get?_metadata (k : String) : a.metadata.get? k =
    if k = "aggregate-name" then some a.name
    else if k = "aggregate-id" then some a.id
    else none := by
  have hinsert : a.metadata =
      ((∅ : Labels).insert "aggregate-name" a.name).insert "aggregate-id" a.id := rfl
  rw [hinsert, Table.get?_insert, Table.get?_insert, Table.get?_empty]
  by_cases hname : k = "aggregate-name"
  · simp [hname]
  · by_cases hid : k = "aggregate-id"
    · simp [hid]
    · simp [hname, hid, Ne.symm hname, Ne.symm hid]

theorem flatten_batches_sublist :
    (a.batches us).flatten.Sublist ((a.useAll us).2.flatMap Emptying.events) := by
  rw [batches]
  induction (a.useAll us).2 with
  | nil => exact List.Sublist.refl _
  | cons x xs ih =>
    cases x with
    | taken es => exact ih.append_left es
    | cleared es => exact ih.trans (List.sublist_append_right es _)

theorem batches_append_staged_sublist :
    ((a.batches us).flatten ++ (a.useAll us).1.staged).Sublist
      (a.staged ++ Use.added a.metadata us) := by
  rw [← events_append_staged]
  exact (a.flatten_batches_sublist us).append_right _

variable {a us}

theorem pairwise_not_same {ess : List (List Event)}
    (h : (ess.flatten.map (·.stamp.serial)).Nodup) :
    ess.Pairwise fun es fs => ∀ e ∈ es, ∀ f ∈ fs, e.same f = false := by
  rw [List.map_flatten, List.nodup_flatten, List.pairwise_map] at h
  refine h.2.imp fun hdisjoint e he f hf => ?_
  have hne : e.stamp.serial ≠ f.stamp.serial := fun heq =>
    hdisjoint (List.mem_map_of_mem he) (heq ▸ List.mem_map_of_mem hf)
  simpa [Event.same] using hne

/-- Whatever is done with an aggregate, its events leave it in the order in which they were added, and
the rest is still staged. The batches that are handed out and that rest have all of them but those
that are cleared: an added event is left out just if the next emptying after it is a clearing. Each of
them tells the name and the id of the aggregate and nothing else; and if the added events are all
different, no batch shares an event with another one or with the rest. -/
theorem staged_events_are_conserved (a : Aggregate) (us : List Use) :
    let rest := (a.useAll us).1.staged
    let added := Use.added a.metadata us
    (a.useAll us).2.flatMap Emptying.events ++ rest = a.staged ++ added ∧
    (a.batches us).flatten ++ rest =
      (if Use.clearsFirst us then [] else a.staged) ++ Use.kept a.metadata us ∧
    (∀ e ∈ (a.batches us).flatten ++ rest, e ∈ a.staged ∨ ∀ k, e.metadata.get? k =
      if k = "aggregate-name" then some a.name
      else if k = "aggregate-id" then some a.id
      else none) ∧
    (((a.staged ++ added).map (·.stamp.serial)).Nodup →
      ((a.batches us).flatten ++ rest).Nodup ∧
      (a.batches us ++ [rest]).Pairwise fun es fs => ∀ e ∈ es, ∀ f ∈ fs, e.same f = false) := by
  intro rest added
  have hsub := a.batches_append_staged_sublist us
  refine ⟨a.events_append_staged us, a.batches_append_staged us, fun e he => ?_, fun hnodup => ?_⟩
  · rcases List.mem_append.1 (hsub.subset he) with hstaged | hadded
    · exact .inl hstaged
    · refine .inr fun k => ?_
      rw [Use.metadata_of_mem_added _ hadded, get?_metadata]
  · have hserials := hnodup.sublist (hsub.map (·.stamp.serial))
    refine ⟨hserials.of_map, pairwise_not_same ?_⟩
    rwa [List.flatten_append, List.flatten_singleton]

end Aggregate

/-- Two events are taken, one is cleared, one is taken alone, and one is left. -/
def Sample.uses : List Use :=
  let fact (name : String) : Fact := .node .add { name }
  [.add ⟨0, 10⟩ (fact "a"), .add ⟨1, 10⟩ (fact "b"), .take, .add ⟨2, 11⟩ (fact "c"), .clear,
    .add ⟨3, 12⟩ (fact "a"), .take, .take, .add ⟨4, 13⟩ (fact "d")]

theorem Aggregate.staged_events_are_conserved_sample :
    let a : Aggregate := ⟨"n1", "nodes.NodeAggregate", []⟩
    let rest := (a.useAll Sample.uses).1.staged
    ((a.staged ++ Use.added a.metadata Sample.uses).map (·.stamp.serial)).Nodup ∧
      ((a.batches Sample.uses).flatten ++ rest).map (·.stamp.serial) = [0, 1, 3, 4] ∧
      (a.batches Sample.uses).map List.length = [2, 1, 0] ∧
      (a.batches Sample.uses ++ [rest]).Pairwise fun es fs =>
        ∀ e ∈ es, ∀ f ∈ fs, e.same f = false := by
  intro a rest
  have hfresh : ((a.staged ++ Use.added a.metadata Sample.uses).map (·.stamp.serial)).Nodup := by
    decide +kernel
  obtain ⟨-, hkept, -, hapart⟩ := staged_events_are_conserved a Sample.uses
  refine ⟨hfresh, ?_, by decide +kernel, (hapart hfresh).2⟩
  rw [hkept]
  decide +kernel

end SessionWatch
