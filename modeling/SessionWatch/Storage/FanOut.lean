import SessionWatch.Plan

/-!
One request to every backend in turn. All are asked, whatever the ones before answered; the
request succeeds if every backend answers, and then with the last answer.
-/

namespace SessionWatch.Storage

variable {α : Type}

structure Tally (α : Type) where
  /-- How many are asked in all. -/
  total : Nat
  last : Option α := none
  /-- The failures so far as one. -/
  failures : Option Report := none
  failed : Nat := 0

namespace Tally

def record (t : Tally α) : Result α → Tally α
  | .ok a => { t with last := some a }
  | .error r =>
    { t with
        failed := t.failed + 1
        failures :=
          match t.failures with
          | some rs => some (rs.extend r)
          | none => some r }

def verdict (t : Tally α) : Result α :=
  match t.failures with
  | some rs => .error (rs.because (.storage (.partialFailure t.failed t.total)))
  | none =>
    match t.last with
    | some a => .ok a
    | none => .error (.of (.storage .noBackend))

end Tally

def askEach (r : Request) (t : Tally r.Answer) : List Nat → Plan (Tally r.Answer)
  | [] => pure t
  | i :: is => do
    let a ← Plan.exchange i r
    askEach r (t.record a) is

def fanOut (backends : Nat) (r : Request) : Plan (Result r.Answer) := do
  let t ← askEach r { total := backends } (List.range backends)
  pure t.verdict

end SessionWatch.Storage
