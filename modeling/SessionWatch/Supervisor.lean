import SessionWatch.Report

/-!
Supervision of workers that run side by side. Workers end in any order and are joined in any
order; the first failure that is joined cancels them all, and whatever happens, every worker is
waited for.
-/

namespace SessionWatch

inductive Ending where
  | done
  | failed (r : Report)
  | panicked
  deriving DecidableEq

def Ending.report? (name : String) : Ending → Option Report
  | .done => none
  | .failed r => some (r.because (.worker (.failed name)))
  | .panicked => some (.of (.worker (.panicked name)))

inductive Stage where
  /-- It waits for the next worker to join. -/
  | waiting
  /-- It has joined a worker that failed, and has yet to cancel the others. -/
  | failing (r : Report)
  /-- It has cancelled the others, and has yet to take note of the failure. -/
  | noting (r : Report)
  /-- It has joined all workers, and has yet to cancel its token for good. -/
  | closing
  | returned (outcome : Result Unit)

/-- What happens under supervision. Workers are given by their place among all. -/
inductive Happening where
  /-- A worker ends. -/
  | ended (worker : Nat) (ending : Ending)
  /-- The workers are cancelled from outside. -/
  | cancelled
  /-- The supervisor joins a worker that has ended. -/
  | joined (worker : Nat)
  /-- The supervisor goes on by itself. -/
  | advanced
  deriving DecidableEq

structure Supervisor where
  /-- The workers by name, in the order of their registration. -/
  names : List String
  /-- The workers that are at work. -/
  running : List Nat
  /-- The workers that have ended and are not joined yet. -/
  ended : List (Nat × Ending) := []
  /-- Whether the supervisor's token is cancelled. Each worker holds a child of it, which is
  cancelled along with it. -/
  stopped : Bool := false
  /-- The first failure that was noted. -/
  failure : Option Report := none
  stage : Stage := .waiting

namespace Supervisor

def start (names : List String) : Supervisor := { names, running := List.range names.length }

def nameOf (s : Supervisor) (worker : Nat) : String := s.names.getD worker ""

def join (s : Supervisor) (worker : Nat) (e : Ending) : Supervisor :=
  { s with
      ended := s.ended.filter fun x => x.1 ≠ worker
      stage :=
        match e.report? (s.nameOf worker) with
        | none => .waiting
        | some r => .failing r }

def verdict (s : Supervisor) : Result Unit :=
  match s.failure with
  | some r => .error r
  | none => .ok ()

/-- The next thing that the supervisor does by itself, if it need not wait. -/
def advance? (s : Supervisor) : Option Supervisor :=
  match s.stage with
  | .waiting => if s.running = [] ∧ s.ended = [] then some { s with stage := .closing } else none
  | .failing r => some { s with stopped := true, stage := .noting r }
  | .noting r => some { s with failure := s.failure.or (some r), stage := .waiting }
  | .closing => some { s with stopped := true, stage := .returned s.verdict }
  | .returned _ => none

/-- What a happening leads to, if it can happen. -/
def step? (s : Supervisor) : Happening → Option Supervisor
  | .ended worker e =>
    if worker ∈ s.running then
      some { s with running := s.running.erase worker, ended := s.ended ++ [(worker, e)] }
    else none
  | .cancelled => some { s with stopped := true }
  | .joined worker =>
    match s.stage with
    | .waiting => (s.ended.lookup worker).map (s.join worker)
    | _ => none
  | .advanced => s.advance?

/-- What cannot happen is passed over. -/
def step (s : Supervisor) (h : Happening) : Supervisor := (s.step? h).getD s

def run (s : Supervisor) (hs : List Happening) : Supervisor := hs.foldl step s

/-- The same where all of it can happen. -/
def run? (s : Supervisor) (hs : List Happening) : Option Supervisor := hs.foldlM step? s

/-- A worker ends and is joined before anything else happens. -/
def endOne (s : Supervisor) (worker : Nat) (e : Ending) : Supervisor :=
  s.run [.ended worker e, .joined worker, .advanced, .advanced]

/-- The supervisor goes on by itself as long as it can, which is four times at most. -/
def settle (s : Supervisor) : Supervisor := s.run (List.replicate 4 .advanced)

def outcome? (s : Supervisor) : Option (Result Unit) :=
  match s.stage with
  | .returned x => some x
  | _ => none

@[simp] theorem run?_nil (s : Supervisor) : s.run? [] = some s := rfl

theorem run?_append (s : Supervisor) (hs ks : List Happening) :
    s.run? (hs ++ ks) = (s.run? hs).bind (·.run? ks) := by
  simp [run?]

@[simp] theorem run?_cons (s : Supervisor) (h : Happening) (hs : List Happening) :
    s.run? (h :: hs) = (s.step? h).bind (·.run? hs) := by
  simp [run?]

end Supervisor

end SessionWatch
