import SessionWatch.Plan

/-!
The state that plans work on, and what each step does to it. A plan runs to its result, or
the process dies at a step and leaves the state as it is then.
-/

namespace SessionWatch

structure World where
  clock : Clock
  backends : List Storage.Backend
  /-- The times at which nodes were provisioned and pods scheduled, by key. -/
  cache : Table Int64 := ∅
  /-- The serial number of the next stamp. -/
  serial : Nat := 0
  notes : List Note := []

namespace World

def exchange (w : World) (i : Nat) (r : Storage.Request) : World × Option (Result r.Answer) :=
  match w.backends[i]? with
  | none => (w, some (.error (.of (.storage .noBackend))))
  | some b =>
    let x := b.exchange w.clock r
    ({ w with backends := w.backends.set i x.1 }, x.2)

/-- One step; without an answer the process died. -/
def perform (w : World) : (s : Step) → World × Option s.Answer
  | .exchange i r => w.exchange i r
  | .consult key => (w, some (w.cache.get? key))
  | .remember key time => ({ w with cache := w.cache.insert key time }, some ())
  | .forget key => ({ w with cache := w.cache.erase key }, some (w.cache.get? key))
  | .stamp => ({ w with serial := w.serial + 1 }, some ⟨w.serial, w.clock.wall⟩)
  | .note n => ({ w with notes := w.notes ++ [n] }, some ())

end World

namespace Plan

variable {α β : Type}

def run : Plan α → World → World × Option α
  | .done a, w => (w, some a)
  | .step s next, w =>
    match w.perform s with
    | (w, some x) => (next x).run w
    | (w, none) => (w, none)

@[simp] theorem run_done (a : α) (w : World) : (done a).run w = (w, some a) := rfl

theorem run_step (s : Step) (next : s.Answer → Plan α) (w : World) :
    (step s next).run w =
      match w.perform s with
      | (w, some x) => (next x).run w
      | (w, none) => (w, none) := by
  simp only [run]

theorem run_bind (p : Plan α) (f : α → Plan β) (w : World) :
    (p.bind f).run w =
      match p.run w with
      | (w, some a) => (f a).run w
      | (w, none) => (w, none) := by
  induction p generalizing w with
  | done a => rfl
  | step s next ih =>
    rw [bind_step, run_step, run_step]
    cases h : w.perform s with
    | mk w₁ x =>
      cases x with
      | none => rfl
      | some x => exact ih x w₁

end Plan

end SessionWatch
