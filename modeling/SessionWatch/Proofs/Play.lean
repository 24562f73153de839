import Mathlib.Tactic
import SessionWatch.World

/-!
Plans under changing conditions. Before each step the clocks may stand anywhere and each backend
in memory may refuse other operations than before; what a plan ensures, it ensures under all
conditions. Under steady conditions a plan is played as it runs.
-/

namespace SessionWatch

/-- What a step finds: the clocks, and the operations that the backend at each position refuses. -/
structure Conditions where
  clock : Clock
  refused : ℕ → List Storage.Operation

abbrev Weather := ℕ → Conditions

/-- A backend that refuses just these operations. What a server refuses is among its replies. -/
def Storage.Backend.refusing (b : Backend) (ops : List Operation) : Backend :=
  match b with
  | .memory m => .memory { m with failing := ops }
  | .redis c => .redis c

def World.facing (w : World) (c : Conditions) : Step → World
  | .exchange i _ =>
    { w with clock := c.clock, backends := w.backends.modify i (·.refusing (c.refused i)) }
  | _ => { w with clock := c.clock }

def Weather.Calm (ω : Weather) : Prop := ∀ n i, (ω n).refused i = []

structure Scene where
  world : World
  weather : Weather

def Scene.perform (c : Scene) (s : Step) : Scene × Option s.Answer :=
  let x := (c.world.facing (c.weather 0) s).perform s
  (⟨x.1, fun n => c.weather (n + 1)⟩, x.2)

namespace Plan

variable {α β : Type}

def play : Plan α → Scene → Scene × Option α
  | .done a, c => (c, some a)
  | .step s next, c =>
    match c.perform s with
    | (c, some x) => (next x).play c
    | (c, none) => (c, none)

@[simp] theorem play_done (a : α) (c : Scene) : (done a).play c = (c, some a) := rfl

theorem play_step (s : Step) (next : s.Answer → Plan α) (c : Scene) :
    (step s next).play c =
      match c.perform s with
      | (c, some x) => (next x).play c
      | (c, none) => (c, none) := by
  simp only [play]

@[simp] theorem play_once (s : Step) (c : Scene) : (once s).play c = c.perform s := by
  rw [once, play_step]
  rcases c.perform s with ⟨c', _ | x⟩ <;> rfl

theorem play_bind (p : Plan α) (f : α → Plan β) (c : Scene) :
    (p.bind f).play c =
      match p.play c with
      | (c, some a) => (f a).play c
      | (c, none) => (c, none) := by
  induction p generalizing c with
  | done a => rfl
  | step s next ih =>
    rw [bind_step, play_step, play_step]
    rcases c.perform s with ⟨c', _ | x⟩
    · rfl
    · exact ih x c'

theorem play_bind_of_some {p : Plan α} {c c' : Scene} {a : α} (h : p.play c = (c', some a))
    (f : α → Plan β) : (p.bind f).play c = (f a).play c' := by
  rw [play_bind, h]

theorem play_bind_done (p : Plan α) (f : α → β) (c : Scene) :
    (p.bind fun a => .done (f a)).play c = ((p.play c).1, (p.play c).2.map f) := by
  rw [play_bind]
  rcases p.play c with ⟨c', _ | a⟩ <;> rfl

theorem play_note (n : Note) (w : World) (ω : Weather) : (note n).play ⟨w, ω⟩ =
    (⟨{ w with clock := (ω 0).clock, notes := w.notes ++ [n] }, fun k => ω (k + 1)⟩, some ()) :=
  rfl

theorem play_consult (key : String) (w : World) (ω : Weather) : (consult key).play ⟨w, ω⟩ =
    (⟨{ w with clock := (ω 0).clock }, fun k => ω (k + 1)⟩, some (w.cache.get? key)) :=
  rfl

theorem play_calm (p : Plan α) {c : Scene} (h : Weather.Calm c.weather) :
    Weather.Calm (p.play c).1.weather := by
  induction p generalizing c with
  | done a => exact h
  | step s next ih =>
    have hnext : Weather.Calm (c.perform s).1.weather := fun n i => h (n + 1) i
    rw [play_step]
    rcases hs : c.perform s with ⟨c', _ | x⟩
    · rwa [hs] at hnext
    · rw [hs] at hnext
      exact ih x hnext

/-- Whatever the weather, the plan leaves such a world and such a result. -/
def Ensures (p : Plan α) (w : World) (Q : World → Option α → Prop) : Prop :=
  ∀ ω : Weather, Q (p.play ⟨w, ω⟩).1.world (p.play ⟨w, ω⟩).2

namespace Ensures

variable {p : Plan α} {f : α → Plan β} {w : World}

theorem done {a : α} {Q : World → Option α → Prop} (h : Q w (some a)) :
    (Plan.done a).Ensures w Q := fun _ => h

theorem mono {Q R : World → Option α → Prop} (h : p.Ensures w Q)
    (hQR : ∀ v x, Q v x → R v x) : p.Ensures w R :=
  fun ω => hQR _ _ (h ω)

theorem bind {Q : World → Option α → Prop} {R : World → Option β → Prop} (h : p.Ensures w Q)
    (hsome : ∀ v a, Q v (some a) → (f a).Ensures v R) (hnone : ∀ v, Q v none → R v none) :
    (p.bind f).Ensures w R := by
  intro ω
  have hp := h ω
  rw [play_bind]
  rcases hplay : p.play ⟨w, ω⟩ with ⟨⟨v, ω'⟩, _ | a⟩
  · rw [hplay] at hp
    exact hnone v hp
  · rw [hplay] at hp
    exact hsome v a hp ω'

end Ensures

end Plan

namespace Storage.Memory

@[simp] theorem failing_append (m : Memory) (now : UInt64) (key id : String) (fields : Fields) :
    (m.append now key id fields).1.failing = m.failing := rfl

@[simp] theorem failing_addMembers (m : Memory) (set : String) (keys : List String) :
    (m.addMembers set keys).1.failing = m.failing := rfl

theorem failing_writeAll (m : Memory) (c : Clock) (rs : List Record) :
    (m.writeAll c rs).1.failing = m.failing := by
  induction rs generalizing m with
  | nil => rfl
  | cons r rs ih =>
    rw [writeAll]
    cases hw : m.write? c r with
    | none => rfl
    | some m' =>
      have hm : m'.failing = m.failing := by
        simp only [write?] at hw
        split at hw
        · simp only [Option.some.injEq] at hw
          subst hw
          rfl
        · obtain ⟨d, -, rfl⟩ := Option.map_eq_some_iff.1 hw
          rfl
      exact (ih m').trans hm

@[simp] theorem failing_exchange (m : Memory) (c : Clock) (r : Request) :
    (m.exchange c r).1.failing = m.failing := by
  unfold exchange
  split
  · rfl
  · cases r with
    | index set rs =>
      cases rs with
      | nil => rfl
      | cons r rs =>
        have hw := failing_writeAll m c (r :: rs)
        simp only [serve]
        split <;> simp_all
    | _ => rfl

end Storage.Memory

namespace World

/-- The clocks stand and each backend refuses as the conditions say. -/
def Meets (w : World) (c : Conditions) : Prop :=
  w.clock = c.clock ∧ ∀ i m, w.backends[i]? = some (.memory m) → m.failing = c.refused i

theorem facing_of_meets {w : World} {c : Conditions} (h : w.Meets c) (s : Step) :
    w.facing c s = w := by
  cases s with
  | exchange i r =>
    have hb : w.backends.modify i (·.refusing (c.refused i)) = w.backends := by
      refine List.ext_getElem? fun j => ?_
      rw [List.getElem?_modify]
      split
      · next hij =>
        subst hij
        cases hj : w.backends[i]? with
        | none => rfl
        | some b =>
          cases b with
          | memory m => simp [Storage.Backend.refusing, ← h.2 i m hj]
          | redis c => rfl
      · simp
    rw [facing, hb, ← h.1]
  | _ => exact congrArg (fun clock => { w with clock := clock }) h.1.symm

theorem meets_perform {w : World} {c : Conditions} (h : w.Meets c) (s : Step) :
    (w.perform s).1.Meets c := by
  cases s with
  | exchange i r =>
    simp only [perform, exchange]
    cases hi : w.backends[i]? with
    | none => exact h
    | some b =>
      refine ⟨h.1, fun j m hj => ?_⟩
      by_cases hij : i = j
      · subst hij
        have hlt : i < w.backends.length := (List.getElem?_eq_some_iff.1 hi).1
        simp only [List.getElem?_set_self hlt, Option.some.injEq] at hj
        cases b with
        | memory m' =>
          simp only [Storage.Backend.exchange, Storage.Backend.memory.injEq] at hj
          rw [← hj, Storage.Memory.failing_exchange, h.2 i m' hi]
        | redis c => simp [Storage.Backend.exchange] at hj
      · rw [List.getElem?_set_ne hij] at hj
        exact h.2 j m hj
  | _ => exact h

end World

/-- Under conditions that stay as the world has them, a plan is played as it runs. -/
theorem Plan.play_steady {α : Type} (p : Plan α) (w : World) {c : Conditions} (h : w.Meets c) :
    p.play ⟨w, fun _ => c⟩ = (⟨(p.run w).1, fun _ => c⟩, (p.run w).2) := by
  induction p generalizing w with
  | done a => rfl
  | step s next ih =>
    have hp := World.meets_perform h s
    rw [play_step, run_step, Scene.perform, World.facing_of_meets h]
    rcases hx : w.perform s with ⟨w', _ | x⟩
    · rfl
    · rw [hx] at hp
      exact ih x w' hp

end SessionWatch
