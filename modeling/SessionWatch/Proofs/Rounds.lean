import Mathlib.Data.Seq.Basic
import Mathlib.Logic.Relation
import SessionWatch.Cluster.Listening
import SessionWatch.Proofs.Mirror

/-!
A listener at work, call by call. It chooses the next item of its watch or the end, and makes the
calls of an item one after the other; it may be told to stop at any moment, also between two calls
of an item. Whenever it is free to choose, it has made the calls of the items taken so far, each as
a whole, and no others.
-/

namespace SessionWatch.Cluster

namespace Store

/-- The callbacks that may tell of an item. -/
inductive Hears (s : Store) : Item → List Callback → Prop
  | change {c : Change} {ds : List Callback} : s.Tells c ds → Hears s (.change c) ds
  | failed (message : String) : Hears s (.failed message) [.failed message]

theorem hears_receive (s : Store) (i : Item) : s.Hears i (s.receive i).2 := by
  cases i with
  | change c => exact .change (s.tells_apply c)
  | failed message => exact .failed message

inductive Account : Store → List (Item × List Callback) → Store → Prop
  | nil (s : Store) : Account s [] s
  | cons {s t : Store} {i : Item} {ds : List Callback} {xs : List (Item × List Callback)} :
      s.Hears i ds → Account (s.receive i).1 xs t → Account s ((i, ds) :: xs) t

def changeOf? : Item × List Callback → Option (Change × List Callback)
  | (.change c, ds) => some (c, ds)
  | (.failed _, _) => none

namespace Account

variable {s t : Store} {xs : List (Item × List Callback)}

theorem concat {i : Item} {ds : List Callback} (h : Account s xs t) (hi : t.Hears i ds) :
    Account s (xs ++ [(i, ds)]) (t.receive i).1 := by
  induction h with
  | nil s => exact .cons hi (.nil _)
  | cons hj _ ih => exact .cons hj (ih hi)

theorem history (h : Account s xs t) : History s (xs.filterMap changeOf?) t := by
  induction h with
  | nil s => exact .nil s
  | cons hi _ ih =>
    cases hi with
    | change htells => exact .cons htells ih
    | failed message => exact ih

end Account

end Store

/-- A listener in the middle of its work. -/
structure Round where
  listening : Listening
  /-- How many items it has taken. -/
  taken : ℕ := 0
  /-- The calls that it has made. -/
  called : List Callback := []
  /-- The calls of the last item that it has still to make. -/
  pending : List Callback := []
  /-- Whether it has been told to stop. -/
  told : Bool := false

namespace Round

def start (resource : String) : Round := { listening := { resource } }

structure IsFree (r : Round) : Prop where
  idle : r.pending = []
  going : r.listening.outcome? = none

/-- What a listener may do next while its watch yields these items. Once it has taken an item it
makes all calls of it, whatever it is told meanwhile. -/
inductive Moves (items : Stream'.Seq Item) : Round → Round → Prop
  | told (r : Round) : Moves items r { r with told := true }
  | called {r : Round} {c : Callback} {rest : List Callback} : r.pending = c :: rest →
      Moves items r { r with called := r.called ++ [c], pending := rest }
  | took {r : Round} {i : Item} {ds : List Callback} : r.IsFree → items.get? r.taken = some i →
      r.listening.store.Hears i ds →
      Moves items r
        { r with listening := (r.listening.step (.item i)).1, taken := r.taken + 1, pending := ds }
  | ended {r : Round} : r.IsFree → items.get? r.taken = none →
      Moves items r { r with listening := (r.listening.step .ended).1 }
  | stopped {r : Round} : r.IsFree → r.told = true →
      Moves items r { r with listening := (r.listening.step .cancelled).1 }

abbrev Reaches (items : Stream'.Seq Item) : Round → Round → Prop :=
  Relation.ReflTransGen (Moves items)

/-- What holds of a listener to some resource at every moment. -/
structure Sound (items : Stream'.Seq Item) (name : String) (r : Round) : Prop where
  resource : r.listening.resource = name
  account : ∃ xs, xs.map (·.1) = items.take r.taken ∧
    Store.Account {} xs r.listening.store ∧ r.called ++ r.pending = xs.flatMap (·.2)
  outcome : ∀ x, r.listening.outcome? = some x → r.pending = [] ∧
    (x = .ok () ∧ r.told = true ∨
      x = .error (Listening.endedEarly name) ∧ items.get? r.taken = none)

variable {items : Stream'.Seq Item} {name : String} {r r' : Round}

theorem take_succ (items : Stream'.Seq Item) (n : ℕ) :
    items.take (n + 1) = items.take n ++ (items.get? n).toList := by
  induction n generalizing items with
  | zero => cases items <;> simp [Stream'.Seq.take_succ_cons]
  | succ n ih =>
    cases items with
    | nil => simp
    | cons i items =>
      rw [Stream'.Seq.take_succ_cons, ih, Stream'.Seq.take_succ_cons, Stream'.Seq.get?_cons_succ,
        List.cons_append]

theorem IsFree.step_item (h : r.IsFree) (i : Item) : r.listening.step (.item i) =
    ({ r.listening with store := (r.listening.store.receive i).1 },
      (r.listening.store.receive i).2) := by
  simp [Listening.step, h.going]

theorem IsFree.step_ended (h : r.IsFree) : r.listening.step .ended =
    ({ r.listening with
        outcome? := some (.error (Listening.endedEarly r.listening.resource)) }, []) := by
  simp [Listening.step, h.going]

theorem IsFree.step_cancelled (h : r.IsFree) : r.listening.step .cancelled =
    ({ r.listening with outcome? := some (.ok ()) }, []) := by
  simp [Listening.step, h.going]

theorem sound_start (items : Stream'.Seq Item) (name : String) : (start name).Sound items name where
  resource := rfl
  account := ⟨[], by simp [start], .nil _, rfl⟩
  outcome := nofun

theorem Sound.moves (h : r.Sound items name) (hm : Moves items r r') : r'.Sound items name := by
  obtain ⟨hresource, ⟨xs, hitems, haccount, hcalls⟩, houtcome⟩ := h
  cases hm with
  | told =>
    refine ⟨hresource, ⟨xs, hitems, haccount, hcalls⟩, fun x hx => ?_⟩
    obtain ⟨hidle, ⟨hok, -⟩ | hended⟩ := houtcome x hx
    · exact ⟨hidle, .inl ⟨hok, rfl⟩⟩
    · exact ⟨hidle, .inr hended⟩
  | @called c rest hpending =>
    refine ⟨hresource, ⟨xs, hitems, haccount, ?_⟩, fun x hx => ?_⟩
    · rw [← hcalls, hpending, List.append_assoc, List.singleton_append]
    · rw [hpending] at houtcome
      cases (houtcome x hx).1
  | @took i ds hfree hi hds =>
    rw [hfree.step_item]
    refine ⟨hresource, ⟨xs ++ [(i, ds)], ?_, haccount.concat hds, ?_⟩, fun x hx => ?_⟩
    · rw [List.map_append, hitems, take_succ, hi]
      rfl
    · rw [hfree.idle, List.append_nil] at hcalls
      rw [hcalls, List.flatMap_append, List.flatMap_singleton]
    · cases hfree.going.symm.trans hx
  | ended hfree hend =>
    rw [hfree.step_ended]
    refine ⟨hresource, ⟨xs, hitems, haccount, hcalls⟩, ?_⟩
    rintro x ⟨⟩
    exact ⟨hfree.idle, .inr ⟨by rw [hresource], hend⟩⟩
  | stopped hfree htold =>
    rw [hfree.step_cancelled]
    refine ⟨hresource, ⟨xs, hitems, haccount, hcalls⟩, ?_⟩
    rintro x ⟨⟩
    exact ⟨hfree.idle, .inl ⟨rfl, htold⟩⟩

theorem Sound.reaches (h : r.Sound items name) (hr : Reaches items r r') : r'.Sound items name := by
  induction hr with
  | refl => exact h
  | tail _ hm ih => exact ih.moves hm

theorem reaches_called (items : Stream'.Seq Item) (r : Round) :
    Reaches items r { r with called := r.called ++ r.pending, pending := [] } := by
  obtain ⟨l, n, called, pending, told⟩ := r
  induction pending generalizing called with
  | nil => simpa using .refl
  | cons c rest ih =>
    have hfirst : Moves items ⟨l, n, called, c :: rest, told⟩ ⟨l, n, called ++ [c], rest, told⟩ :=
      .called rfl
    have hrest := ih (called ++ [c])
    rw [List.append_assoc, List.singleton_append] at hrest
    exact .head hfirst hrest

/-- What may come to a listener that has taken so many items: the next ones in order, and then
perhaps the end. -/
inductive Offers (items : Stream'.Seq Item) : ℕ → List Prompt → Prop
  | nil (n : ℕ) : Offers items n []
  | item {n : ℕ} {i : Item} {ps : List Prompt} : items.get? n = some i → Offers items (n + 1) ps →
      Offers items n (.item i :: ps)
  | ended {n : ℕ} : items.get? n = none → Offers items n [.ended]
  | cancelled (n : ℕ) : Offers items n [.cancelled]

theorem reaches_run {ps : List Prompt} (hps : Offers items r.taken ps) (hr : r.IsFree) :
    ∃ r', Reaches items r r' ∧ r'.pending = [] ∧ r'.listening = (r.listening.run ps).1 ∧
      r'.called = r.called ++ (r.listening.run ps).2 := by
  generalize hn : r.taken = n at hps
  induction hps generalizing r with
  | nil n => exact ⟨r, .refl, hr.idle, rfl, (List.append_nil _).symm⟩
  | @item n i ps hi _ ih =>
    subst hn
    have htook := Moves.took hr hi (r.listening.store.hears_receive i)
    have hcalled := reaches_called items
      { r with
          listening := (r.listening.step (.item i)).1
          taken := r.taken + 1
          pending := (r.listening.store.receive i).2 }
    obtain ⟨r', hr', hidle, hlistening, hcalls⟩ := ih (r :=
      { r with
          listening := (r.listening.step (.item i)).1
          taken := r.taken + 1
          called := r.called ++ (r.listening.store.receive i).2
          pending := [] }) ⟨rfl, by rw [hr.step_item]; exact hr.going⟩ rfl
    refine ⟨r', .head htook (hcalled.trans hr'), hidle, hlistening, ?_⟩
    rw [hcalls, Listening.run, List.append_assoc, hr.step_item]
  | ended hend =>
    subst hn
    refine ⟨_, .single (.ended hr hend), hr.idle, rfl, ?_⟩
    simp [Listening.run, hr.step_ended]
  | cancelled n =>
    have htold : ({ r with told := true } : Round).IsFree := ⟨hr.idle, hr.going⟩
    refine ⟨_, .head (.told r) (.single (.stopped htold rfl)), hr.idle, rfl, ?_⟩
    simp [Listening.run, hr.step_cancelled]

/-- Whatever a watch yields and whenever its listener is told to stop, each time that the listener
is free or has returned it has made the calls of the items it took, all of each in order, and
failures have changed nothing of how the changes are told; a call that is due is made even if the
listener is told to stop before it. It returns in success only if it was told to stop, and in
failure only if the watch has ended. All this is so of a listener that takes its prompts at once. -/
theorem rounds_tell_whole_items (name : String) (items : Stream'.Seq Item) :
    (∀ r, Reaches items (start name) r →
      (r.pending = [] → ∃ xs, xs.map (·.1) = items.take r.taken ∧
        Store.Account {} xs r.listening.store ∧ r.called = xs.flatMap (·.2) ∧
        Store.History {} (xs.filterMap Store.changeOf?) r.listening.store) ∧
      Reaches items r { r with called := r.called ++ r.pending, pending := [] } ∧
      (r.listening.outcome? = some (.ok ()) → r.pending = [] ∧ r.told = true) ∧
      ∀ e, r.listening.outcome? = some (.error e) → r.pending = [] ∧
        e = Listening.endedEarly name ∧ items.get? r.taken = none) ∧
    ∀ ps, Offers items 0 ps → ∃ r, Reaches items (start name) r ∧ r.pending = [] ∧
      r.listening = (Listening.run { resource := name } ps).1 ∧
      r.called = (Listening.run { resource := name } ps).2 := by
  refine ⟨fun r hr => ?_, fun ps hps => ?_⟩
  · obtain ⟨-, ⟨xs, hitems, haccount, hcalls⟩, houtcome⟩ := (sound_start items name).reaches hr
    refine ⟨fun hidle => ⟨xs, hitems, haccount, ?_, haccount.history⟩, reaches_called items r,
      fun hok => ?_, fun e he => ?_⟩
    · rwa [hidle, List.append_nil] at hcalls
    · obtain ⟨hidle, ⟨-, htold⟩ | ⟨herror, -⟩⟩ := houtcome _ hok
      · exact ⟨hidle, htold⟩
      · cases herror
    · obtain ⟨hidle, ⟨hok, -⟩ | ⟨herror, hend⟩⟩ := houtcome _ he
      · cases hok
      · exact ⟨hidle, Except.error.inj herror, hend⟩
  · obtain ⟨r, hr, hidle, hlistening, hcalls⟩ :=
      reaches_run (r := start name) hps ⟨rfl, rfl⟩
    exact ⟨r, hr, hidle, hlistening, hcalls⟩

end Round

/-! A listener is told to stop while it has still two calls of a relist to make. -/

namespace Sample

def yielded : List Item :=
  [.change (.applied (versioned "a" "1")), .failed "gone",
    .change (.relisted [versioned "c" "1", versioned "c" "2"])]

def stopped : Round where
  listening := ⟨"pods", last, some (.ok ())⟩
  taken := 3
  called :=
    [.added (versioned "a" "1"), .failed "gone", .deleted (versioned "a" "1"),
      .added (versioned "c" "1"), .updated (versioned "c" "1") (versioned "c" "2")]
  told := true

theorem reaches_stopped :
    Round.Reaches (Stream'.Seq.ofList yielded) (Round.start "pods") stopped := by
  refine .head (.took ⟨rfl, rfl⟩ rfl (Store.hears_receive _ _)) ?_
  refine .head (.called rfl) (.head (.took ⟨rfl, rfl⟩ rfl (Store.hears_receive _ _)) ?_)
  refine .head (.called rfl) (.head (.took ⟨rfl, rfl⟩ rfl (Store.hears_receive _ _)) ?_)
  refine .head (.called rfl) (.head (.told _) ?_)
  refine .head (.called rfl) (.head (.called rfl) ?_)
  exact .single (.stopped ⟨rfl, rfl⟩ rfl)

end Sample

theorem Round.rounds_tell_whole_items_sample :
    Reaches (Stream'.Seq.ofList Sample.yielded) (start "pods") Sample.stopped ∧
      Sample.stopped.pending = [] ∧ Sample.stopped.listening.outcome? = some (.ok ()) ∧
      Sample.stopped.told = true ∧
      ∃ xs : List (Item × List Callback),
        xs.map (·.1) = Sample.yielded ∧ Sample.stopped.called = xs.flatMap (·.2) := by
  have hitems := (rounds_tell_whole_items "pods" (Stream'.Seq.ofList Sample.yielded)).1
    Sample.stopped Sample.reaches_stopped
  obtain ⟨hcalls, -, hstopped, -⟩ := hitems
  obtain ⟨xs, hxs, -, hcalled, -⟩ := hcalls rfl
  exact ⟨Sample.reaches_stopped, rfl, rfl, (hstopped rfl).2, xs, hxs, hcalled⟩

end SessionWatch.Cluster
