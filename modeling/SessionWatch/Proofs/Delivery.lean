import Mathlib.Tactic
import SessionWatch.Dispatch.Reentrant

/-!
What a publication does when its handlers subscribe others and publish themselves. The events are
dealt with in turn, and for each event the handlers that were in force when its delivery started;
subscriptions are only ever added behind the ones there are.
-/

namespace SessionWatch.Dispatch

variable {ι ε σ : Type}

/-- One thing dealt with: the state before, what came of it, and the state after. -/
structure Turn (α S : Type) where
  item : α
  before : S
  outcome : Result Unit
  after : S

def Linked {α S : Type} : S → List (Turn α S) → S → Prop
  | s, [], t => s = t
  | s, x :: xs, t => x.before = s ∧ Linked x.after xs t

/-- Things dealt with in their order up to the first failure, which is the result. -/
structure InTurn {α S : Type} (wrap : Report → Report) (items : List α) (s : S)
    (turns : List (Turn α S)) (r : Result Unit) (t : S) : Prop where
  linked : Linked s turns t
  order : turns.map (·.item) <+: items
  whole : (∀ x ∈ turns, x.outcome = .ok ()) → turns.map (·.item) = items
  stops : ∀ xs x ys, turns = xs ++ x :: ys → x.outcome ≠ .ok () → ys = []
  ok_iff : r = .ok () ↔ ∀ x ∈ turns, x.outcome = .ok ()
  error : ∀ x ∈ turns, ∀ rep, x.outcome = .error rep → r = .error (wrap rep)

namespace InTurn

variable {α S : Type} {wrap : Report → Report} {items : List α} {s t : S}
  {turns : List (Turn α S)} {r : Result Unit}

theorem nil (wrap : Report → Report) (s : S) :
    InTurn wrap ([] : List α) s [] (.ok ()) s where
  linked := rfl
  order := List.prefix_refl []
  whole _ := rfl
  stops xs x ys h := by simp at h
  ok_iff := by simp
  error x hx := by cases hx

theorem cons_ok {a : α} {u : S} (h : InTurn wrap items u turns r t) :
    InTurn wrap (a :: items) s (⟨a, s, .ok (), u⟩ :: turns) r t where
  linked := ⟨rfl, h.linked⟩
  order := by simpa using h.order
  whole hok := by simpa using h.whole fun x hx => hok x (by simp [hx])
  stops xs x ys hsplit hx := by
    cases xs with
    | nil =>
      simp only [List.nil_append, List.cons.injEq] at hsplit
      rw [← hsplit.1] at hx
      exact absurd rfl hx
    | cons y xs =>
      simp only [List.cons_append, List.cons.injEq] at hsplit
      exact h.stops xs x ys hsplit.2 hx
  ok_iff := by simpa using h.ok_iff
  error x hx rep hrep := by
    rcases List.mem_cons.1 hx with rfl | hx
    · cases hrep
    · exact h.error x hx rep hrep

theorem cons_error {a : α} (items : List α) (s t : S) (rep : Report) :
    InTurn wrap (a :: items) s [⟨a, s, .error rep, t⟩] (.error (wrap rep)) t where
  linked := ⟨rfl, rfl⟩
  order := by simp
  whole hok := by simpa using hok ⟨a, s, .error rep, t⟩ (by simp)
  stops xs x ys hsplit _ := by
    cases xs with
    | nil =>
      simp only [List.nil_append, List.cons.injEq] at hsplit
      exact hsplit.2.symm
    | cons y xs => simp at hsplit
  ok_iff := by simp
  error x hx rep' hrep := by
    rw [List.mem_singleton] at hx
    subst hx
    cases hrep
    rfl

end InTurn

namespace Work

variable {α β : Type}

theorem bind_eq_some {x : Work ι σ α} {f : α → Work ι σ β} {s t : Desk ι σ} {b : β} :
    (x >>= f) s = some (b, t) ↔ ∃ a u, x s = some (a, u) ∧ f a u = some (b, t) := by
  simp only [bind, StateT.bind, Option.bind_eq_some_iff, Prod.exists]

theorem registered_run (s : Desk ι σ) :
    (Conduct.registered : Work ι σ (List (Subscription ι))) s = some (s.subscriptions, s) := rfl

theorem pure_eq_some {a b : α} {s t : Desk ι σ} :
    (pure a : Work ι σ α) s = some (b, t) ↔ a = b ∧ s = t := by
  have hrun : (pure a : Work ι σ α) s = some (a, s) := rfl
  rw [hrun, Option.some.injEq, Prod.mk.injEq]

end Work

/-- What an act comes to, by what publications come to and what comes from the points ahead. -/
def Act.Comes {κ : Type} (publishes : List ε → Desk ι σ → Result Unit → Desk ι σ → Prop)
    (goes : κ → Desk ι σ → Result Unit → Desk ι σ → Prop) (a : Act ι ε σ κ) (s : Desk ι σ)
    (r : Result Unit) (t : Desk ι σ) : Prop :=
  match a with
  | .finish x => x = r ∧ s = t
  | .work f => goes (f s.own).2 { s with own := (f s.own).1 } r t
  | .subscribe sub next => goes next { s with subscriptions := s.subscriptions ++ [sub] } r t
  | .count next => goes (next s.subscriptions.length) s r t
  | .publish es next => ∃ x u, publishes es s x u ∧ goes (next x) u r t

theorem Act.Comes.mono {κ : Type} {publishes publishes' : List ε → Desk ι σ → Result Unit →
    Desk ι σ → Prop} {goes goes' : κ → Desk ι σ → Result Unit → Desk ι σ → Prop}
    {a : Act ι ε σ κ} {s t : Desk ι σ} {r : Result Unit} (h : a.Comes publishes goes s r t)
    (hpublishes : ∀ es s r t, publishes es s r t → publishes' es s r t)
    (hgoes : ∀ k s r t, goes k s r t → goes' k s r t) : a.Comes publishes' goes' s r t := by
  cases a with
  | finish x => exact h
  | work f => exact hgoes _ _ _ _ h
  | subscribe sub next => exact hgoes _ _ _ _ h
  | count next => exact hgoes _ _ _ _ h
  | publish es next =>
    obtain ⟨x, u, hpublish, hgo⟩ := h
    exact ⟨x, u, hpublishes _ _ _ _ hpublish, hgoes _ _ _ _ hgo⟩

/-- Subscriptions are only added, behind the ones there are. -/
def Desk.Grows (s t : Desk ι σ) : Prop := s.subscriptions <+: t.subscriptions

namespace Desk.Grows

variable {s t u : Desk ι σ}

theorem refl (s : Desk ι σ) : s.Grows s := List.prefix_refl _

theorem trans (h : s.Grows t) (h' : t.Grows u) : s.Grows u := List.IsPrefix.trans h h'

end Desk.Grows

theorem Act.Comes.grows {κ : Type} {publishes : List ε → Desk ι σ → Result Unit → Desk ι σ → Prop}
    {goes : κ → Desk ι σ → Result Unit → Desk ι σ → Prop} {a : Act ι ε σ κ} {s t : Desk ι σ}
    {r : Result Unit} (h : a.Comes publishes goes s r t)
    (hpublishes : ∀ es s r t, publishes es s r t → s.Grows t)
    (hgoes : ∀ k s r t, goes k s r t → s.Grows t) : s.Grows t := by
  cases a with
  | finish x =>
    obtain ⟨-, rfl⟩ := h
    exact .refl s
  | work f =>
    have hgo : Desk.Grows { s with own := (f s.own).1 } t := hgoes _ _ _ _ h
    exact hgo
  | subscribe sub next =>
    have hadd : s.Grows { s with subscriptions := s.subscriptions ++ [sub] } :=
      List.prefix_append _ _
    exact hadd.trans (hgoes _ _ _ _ h)
  | count next => exact hgoes _ _ _ _ h
  | publish es next =>
    obtain ⟨x, u, hpublish, hgo⟩ := h
    exact (hpublishes _ _ _ _ hpublish).trans (hgoes _ _ _ _ hgo)

theorem Linked.grows {α : Type} {s t : Desk ι σ} {turns : List (Turn α (Desk ι σ))}
    (h : Linked s turns t) (hturns : ∀ x ∈ turns, x.before.Grows x.after) :
    s.Grows t ∧ (∀ x ∈ turns, s.Grows x.before ∧ x.after.Grows t) ∧
      turns.Pairwise fun x y => x.after.Grows y.before := by
  induction turns generalizing s with
  | nil =>
    obtain rfl : s = t := h
    exact ⟨.refl s, by simp, .nil⟩
  | cons x xs ih =>
    obtain ⟨rfl, hlinked⟩ := h
    have hx := hturns x (by simp)
    obtain ⟨hall, heach, hpairs⟩ := ih hlinked fun y hy => hturns y (by simp [hy])
    refine ⟨hx.trans hall, fun y hy => ?_, List.pairwise_cons.2 ⟨fun y hy => (heach y hy).1, hpairs⟩⟩
    rcases List.mem_cons.1 hy with rfl | hy
    · exact ⟨.refl _, hall⟩
    · exact ⟨hx.trans (heach y hy).1, (heach y hy).2⟩

variable [Named ε] {handle : ι → ε → Work ι σ (Result Unit)}

theorem deliver_in_turn {e : ε} {hs : List ι} {s t : Desk ι σ} {r : Result Unit}
    (h : deliver handle e hs s = some (r, t)) :
    ∃ visits, InTurn (·.because (.delivery (.handlerFailed (Named.name e)))) hs s visits r t ∧
      ∀ v ∈ visits, handle v.item e v.before = some (v.outcome, v.after) := by
  induction hs generalizing s with
  | nil =>
    obtain ⟨rfl, rfl⟩ := Work.pure_eq_some.1 h
    exact ⟨[], .nil _ s, by simp⟩
  | cons i hs ih =>
    obtain ⟨x, u, hx, hrest⟩ := Work.bind_eq_some.1 h
    cases x with
    | ok y =>
      obtain ⟨visits, hturn, hmade⟩ := ih hrest
      refine ⟨⟨i, s, .ok (), u⟩ :: visits, hturn.cons_ok, fun v hv => ?_⟩
      rcases List.mem_cons.1 hv with rfl | hv
      · exact hx
      · exact hmade v hv
    | error rep =>
      obtain ⟨rfl, rfl⟩ := Work.pure_eq_some.1 hrest
      refine ⟨[⟨i, s, .error rep, u⟩], .cons_error hs s u rep, fun v hv => ?_⟩
      rw [List.mem_singleton] at hv
      subst hv
      exact hx

theorem publish_in_turn {es : List ε} {s t : Desk ι σ} {r : Result Unit}
    (h : publish Conduct.registered handle es s = some (r, t)) :
    ∃ rounds, InTurn id es s rounds r t ∧ ∀ x ∈ rounds,
      deliver handle x.item (Subscription.handlersFor x.before.subscriptions (Named.name x.item))
        x.before = some (x.outcome, x.after) := by
  induction es generalizing s with
  | nil =>
    obtain ⟨rfl, rfl⟩ := Work.pure_eq_some.1 h
    exact ⟨[], .nil _ s, by simp⟩
  | cons e es ih =>
    obtain ⟨subs, s', hsubs, hdeliver⟩ := Work.bind_eq_some.1 h
    rw [Work.registered_run, Option.some.injEq, Prod.mk.injEq] at hsubs
    obtain ⟨rfl, rfl⟩ := hsubs
    obtain ⟨x, u, hx, hrest⟩ := Work.bind_eq_some.1 hdeliver
    cases x with
    | ok y =>
      obtain ⟨rounds, hturn, hmade⟩ := ih hrest
      refine ⟨⟨e, s, .ok (), u⟩ :: rounds, hturn.cons_ok, fun v hv => ?_⟩
      rcases List.mem_cons.1 hv with rfl | hv
      · exact hx
      · exact hmade v hv
    | error rep =>
      obtain ⟨rfl, rfl⟩ := Work.pure_eq_some.1 hrest
      refine ⟨[⟨e, s, .error rep, u⟩], .cons_error es s u rep, fun v hv => ?_⟩
      rw [List.mem_singleton] at hv
      subst hv
      exact hx

/-- What terminates for some handlers does so for those that terminate more often. -/
theorem deliver_mono {handle' : ι → ε → Work ι σ (Result Unit)} {e : ε} {hs : List ι}
    {s : Desk ι σ} {x : Result Unit × Desk ι σ}
    (hmono : ∀ i s x, handle i e s = some x → handle' i e s = some x)
    (h : deliver handle e hs s = some x) : deliver handle' e hs s = some x := by
  induction hs generalizing s with
  | nil => exact h
  | cons i hs ih =>
    obtain ⟨y, u, hy, hrest⟩ := Work.bind_eq_some.1 h
    refine Work.bind_eq_some.2 ⟨y, u, hmono i s _ hy, ?_⟩
    cases y with
    | ok z => exact ih hrest
    | error rep => exact hrest

theorem publish_mono {handle' : ι → ε → Work ι σ (Result Unit)} {es : List ε} {s : Desk ι σ}
    {x : Result Unit × Desk ι σ} (hmono : ∀ i e s x, handle i e s = some x → handle' i e s = some x)
    (h : publish Conduct.registered handle es s = some x) :
    publish Conduct.registered handle' es s = some x := by
  induction es generalizing s with
  | nil => exact h
  | cons e es ih =>
    obtain ⟨subs, s', hsubs, hdeliver⟩ := Work.bind_eq_some.1 h
    obtain ⟨y, u, hy, hrest⟩ := Work.bind_eq_some.1 hdeliver
    refine Work.bind_eq_some.2 ⟨subs, s', hsubs, ?_⟩
    refine Work.bind_eq_some.2 ⟨y, u, deliver_mono (fun i => hmono i e) hy, ?_⟩
    cases y with
    | ok z => exact ih hrest
    | error rep => exact hrest

namespace Conduct

variable (c : Conduct ι ε σ) {k : c.Point} {es : List ε} {s t : Desk ι σ} {r : Result Unit}
  {n m : ℕ}

theorem runWithin_succ_iff : c.runWithin (n + 1) k s = some (r, t) ↔
    (c.act k).Comes (fun es s r t => c.publishWithin n es s = some (r, t))
      (fun k s r t => c.runWithin n k s = some (r, t)) s r t := by
  rw [runWithin]
  cases c.act k with
  | finish x => exact Work.pure_eq_some
  | work f => exact Iff.rfl
  | subscribe sub next => exact Iff.rfl
  | count next => exact Iff.rfl
  | publish es next => exact Work.bind_eq_some

theorem runWithin_succ (h : c.runWithin n k s = some (r, t)) :
    c.runWithin (n + 1) k s = some (r, t) := by
  induction n generalizing k s r t with
  | zero => cases h
  | succ n ih =>
    rw [runWithin_succ_iff] at h ⊢
    exact h.mono (fun es s r t => publish_mono fun _ _ _ _ => ih) fun k s r t => ih

theorem runWithin_mono (hnm : n ≤ m) (h : c.runWithin n k s = some (r, t)) :
    c.runWithin m k s = some (r, t) := by
  induction hnm with
  | refl => exact h
  | step _ ih => exact c.runWithin_succ ih

theorem publishWithin_mono (hnm : n ≤ m) (h : c.publishWithin n es s = some (r, t)) :
    c.publishWithin m es s = some (r, t) :=
  publish_mono (fun _ _ _ _ => c.runWithin_mono hnm) h

/-- From a point the handler comes to a result and leaves such a desk. -/
def Runs (k : c.Point) (s : Desk ι σ) (r : Result Unit) (t : Desk ι σ) : Prop :=
  ∃ n, c.runWithin n k s = some (r, t)

def Handles (i : ι) (e : ε) (s : Desk ι σ) (r : Result Unit) (t : Desk ι σ) : Prop :=
  c.Runs (c.start i e) s r t

def Publishes (es : List ε) (s : Desk ι σ) (r : Result Unit) (t : Desk ι σ) : Prop :=
  ∃ n, c.publishWithin n es s = some (r, t)

/-- A handler does what its act says; what a publication in it comes to is for it to judge. -/
theorem runs_iff : c.Runs k s r t ↔ (c.act k).Comes c.Publishes c.Runs s r t := by
  constructor
  · rintro ⟨n, h⟩
    cases n with
    | zero => cases h
    | succ n =>
      rw [runWithin_succ_iff] at h
      exact h.mono (fun es s r t h => ⟨n, h⟩) fun k s r t h => ⟨n, h⟩
  · intro h
    suffices hdepth : ∃ n, (c.act k).Comes
        (fun es s r t => c.publishWithin n es s = some (r, t))
        (fun k s r t => c.runWithin n k s = some (r, t)) s r t by
      obtain ⟨n, hn⟩ := hdepth
      exact ⟨n + 1, c.runWithin_succ_iff.2 hn⟩
    cases hact : c.act k with
    | finish x =>
      rw [hact] at h
      exact ⟨0, h⟩
    | work f | subscribe sub next | count next =>
      rw [hact] at h
      exact h
    | publish es next =>
      rw [hact] at h
      obtain ⟨x, u, ⟨n, hpublish⟩, m, hgo⟩ := h
      exact ⟨max n m, x, u, c.publishWithin_mono (le_max_left n m) hpublish,
        c.runWithin_mono (le_max_right n m) hgo⟩

theorem publish_grows {handle : ι → ε → Work ι σ (Result Unit)}
    (hgrows : ∀ i e s r t, handle i e s = some (r, t) → s.Grows t)
    (h : publish registered handle es s = some (r, t)) : s.Grows t := by
  obtain ⟨rounds, hturn, hmade⟩ := publish_in_turn h
  refine (hturn.linked.grows fun x hx => ?_).1
  obtain ⟨visits, hvisits, hcalls⟩ := deliver_in_turn (hmade x hx)
  exact (hvisits.linked.grows fun v hv => hgrows _ _ _ _ _ (hcalls v hv)).1

theorem runWithin_grows (h : c.runWithin n k s = some (r, t)) : s.Grows t := by
  induction n generalizing k s r t with
  | zero => cases h
  | succ n ih =>
    rw [runWithin_succ_iff] at h
    exact h.grows (fun _ _ _ _ => publish_grows fun _ _ _ _ _ => ih) fun _ _ _ _ => ih

/-- A publication that comes to a result deals with its events in turn, and with each by handing it
to the handlers in force when its delivery starts, in turn as well. -/
theorem publishes_in_turn (c : Conduct ι ε σ) {es : List ε} {s t : Desk ι σ} {r : Result Unit}
    (h : c.Publishes es s r t) :
    (∃ rounds, InTurn id es s rounds r t ∧ s.Grows t ∧
      rounds.Pairwise (fun x y => x.after.Grows y.before) ∧
      ∀ x ∈ rounds, ∃ visits,
        InTurn (·.because (.delivery (.handlerFailed (Named.name x.item))))
          ((x.before.subscriptions.filter fun s =>
            s.names = [] ∨ Named.name x.item ∈ s.names).map (·.handler))
          x.before visits x.outcome x.after ∧
        ∀ v ∈ visits, c.Handles v.item x.item v.before v.outcome v.after ∧
          x.before.Grows v.before ∧ v.before.Grows v.after ∧ v.after.Grows x.after) ∧
    ∀ k s r t, c.Runs k s r t ↔ (c.act k).Comes c.Publishes c.Runs s r t := by
  obtain ⟨n, h⟩ := h
  obtain ⟨rounds, hturn, hmade⟩ := publish_in_turn h
  simp only [← Subscription.handlersFor_eq]
  have hround : ∀ x ∈ rounds, ∃ visits,
      InTurn (·.because (.delivery (.handlerFailed (Named.name x.item))))
        (Subscription.handlersFor x.before.subscriptions (Named.name x.item))
        x.before visits x.outcome x.after ∧
      ∀ v ∈ visits, c.Handles v.item x.item v.before v.outcome v.after ∧
        x.before.Grows v.before ∧ v.before.Grows v.after ∧ v.after.Grows x.after := by
    intro x hx
    obtain ⟨visits, hvisits, hcalls⟩ := deliver_in_turn (hmade x hx)
    have hgrows : ∀ v ∈ visits, v.before.Grows v.after := fun v hv =>
      c.runWithin_grows (hcalls v hv)
    have hlinked := (hvisits.linked.grows hgrows).2.1
    exact ⟨visits, hvisits, fun v hv =>
      ⟨⟨n, hcalls v hv⟩, (hlinked v hv).1, hgrows v hv, (hlinked v hv).2⟩⟩
  have hgrows : ∀ x ∈ rounds, x.before.Grows x.after := by
    intro x hx
    obtain ⟨visits, hvisits, hcalls⟩ := hround x hx
    exact (hvisits.linked.grows fun v hv => (hcalls v hv).2.2.1).1
  have hlinked := hturn.linked.grows hgrows
  exact ⟨⟨rounds, hturn, hlinked.1, hlinked.2.2, hround⟩, fun k s r t => c.runs_iff⟩

end Conduct

namespace Sample

def late : Script String := .mk "late" [] [("late", .session)]

/-- A handler that subscribes another and publishes an event that the other fails on. -/
def joining : Script String := .mk "joining" [("join", [.subscribe ["late"] late, .publish ["late"]])] []

def failure : Report := (Report.of (.handling .session)).because (.delivery (.handlerFailed "late"))

def opened : Desk (Script String) (List (Mark String)) := ⟨[⟨["join"], joining⟩], []⟩

/-- The nested failure is noted, and the same handler fails again when its event comes. -/
def closed : Desk (Script String) (List (Mark String)) :=
  ⟨[⟨["join"], joining⟩, ⟨["late"], late⟩],
    [.called "joining" "join", .nested (.subscribed 2), .called "late" "late",
      .nested (.published (.error failure)), .called "late" "late"]⟩

end Sample

theorem publishes_in_turn_sample :
    Script.conduct.Publishes ["join", "late"] Sample.opened (.error Sample.failure) Sample.closed ∧
      ∃ rounds, InTurn id ["join", "late"] Sample.opened rounds (.error Sample.failure)
        Sample.closed := by
  have h : Script.conduct.Publishes ["join", "late"] Sample.opened (.error Sample.failure)
      Sample.closed := ⟨12, rfl⟩
  obtain ⟨⟨rounds, hturn, -⟩, -⟩ := Conduct.publishes_in_turn Script.conduct h
  exact ⟨h, rounds, hturn⟩

end SessionWatch.Dispatch
