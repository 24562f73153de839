import SessionWatch.Event
import SessionWatch.Session.Task
import SessionWatch.Storage.Backend

/-!
Work laid out as a tree of single steps: a step is one exchange with one backend or one
access to the time cache, and what comes next depends on its answer. Between two steps
others may do theirs.
-/

namespace SessionWatch

/-- What an onlooker writes down. -/
inductive Note where
  | offered (e : Event)
  | handled (e : Event)
  | called (c : Session.Call)

inductive Step where
  | exchange (backend : Nat) (request : Storage.Request)
  | consult (key : String)
  | remember (key : String) (time : Int64)
  | forget (key : String)
  /-- A new stamp for an event. -/
  | stamp
  | note (n : Note)

abbrev Step.Answer : Step → Type
  | .exchange _ r => Result r.Answer
  | .consult _ => Option Int64
  | .remember .. => Unit
  | .forget _ => Option Int64
  | .stamp => Stamp
  | .note _ => Unit

inductive Plan (α : Type) where
  | done (a : α)
  | step (s : Step) (next : s.Answer → Plan α)

namespace Plan

variable {α β γ : Type}

def bind : Plan α → (α → Plan β) → Plan β
  | .done a, f => f a
  | .step s next, f => .step s fun x => (next x).bind f

instance : Monad Plan where
  pure := .done
  bind := .bind

@[simp] theorem pure_eq (a : α) : (pure a : Plan α) = .done a := rfl

@[simp] theorem bind_eq (p : Plan α) (f : α → Plan β) : (p >>= f) = p.bind f := rfl

@[simp] theorem bind_done (a : α) (f : α → Plan β) : (done a).bind f = f a := rfl

@[simp] theorem bind_step (s : Step) (next : s.Answer → Plan α) (f : α → Plan β) :
    (step s next).bind f = .step s fun x => (next x).bind f := rfl

theorem bind_of_done (p : Plan α) : p.bind .done = p := by
  induction p with
  | done a => rfl
  | step s next ih => exact congrArg _ (funext ih)

theorem bind_assoc (p : Plan α) (f : α → Plan β) (g : β → Plan γ) :
    (p.bind f).bind g = p.bind fun a => (f a).bind g := by
  induction p with
  | done a => rfl
  | step s next ih => exact congrArg _ (funext ih)

instance : LawfulMonad Plan :=
  LawfulMonad.mk' Plan bind_of_done (fun _ _ => rfl) bind_assoc

def once (s : Step) : Plan s.Answer := .step s .done

def exchange (backend : Nat) (r : Storage.Request) : Plan (Result r.Answer) :=
  once (.exchange backend r)

def consult (key : String) : Plan (Option Int64) := once (.consult key)

def remember (key : String) (time : Int64) : Plan Unit := once (.remember key time)

def forget (key : String) : Plan (Option Int64) := once (.forget key)

def stamp : Plan Stamp := once .stamp

def note (n : Note) : Plan Unit := once (.note n)

end Plan

end SessionWatch
