import SessionWatch.Event
import SessionWatch.Report

/-!
Handing events to subscribers: in the order of the events, for each event in the order of the
subscriptions, and no further than the first failure. The subscribers of an event are those
registered when its delivery starts.
-/

namespace SessionWatch

/-- Whatever has a name to subscribe to. -/
class Named (ε : Type) where
  name : ε → String

instance : Named Event := ⟨Event.name⟩

instance : Named String := ⟨id⟩

/-- A handler and the names of the events it is for; no names at all stand for every event. -/
structure Subscription (ι : Type) where
  names : List String
  handler : ι
  deriving DecidableEq

namespace Subscription

variable {ι : Type}

def accepts (s : Subscription ι) (name : String) : Bool := s.names.isEmpty || s.names.contains name

theorem accepts_iff {s : Subscription ι} {name : String} :
    s.accepts name = true ↔ s.names = [] ∨ name ∈ s.names := by
  simp [accepts]

def handlersFor (subs : List (Subscription ι)) (name : String) : List ι :=
  (subs.filter (·.accepts name)).map (·.handler)

theorem handlersFor_eq (subs : List (Subscription ι)) (name : String) : handlersFor subs name =
    (subs.filter fun s => s.names = [] ∨ name ∈ s.names).map (·.handler) := by
  simp only [handlersFor, ← accepts_iff, Bool.decide_eq_true]

@[simp] theorem handlersFor_append (subs subs' : List (Subscription ι)) (name : String) :
    handlersFor (subs ++ subs') name = handlersFor subs name ++ handlersFor subs' name := by
  simp [handlersFor]

end Subscription

namespace Dispatch

variable {ι ε : Type} {m : Type → Type} [Monad m]

/-- Hand one event to handlers in turn, up to the first that fails. -/
def deliver [Named ε] (handle : ι → ε → m (Result Unit)) (e : ε) : List ι → m (Result Unit)
  | [] => pure (.ok ())
  | h :: hs => do
    match ← handle h e with
    | .ok () => deliver handle e hs
    | .error r => pure (.error (r.because (.delivery (.handlerFailed (Named.name e)))))

/-- Deliver events in turn, up to the first failure. -/
def publish [Named ε] (registered : m (List (Subscription ι))) (handle : ι → ε → m (Result Unit)) :
    List ε → m (Result Unit)
  | [] => pure (.ok ())
  | e :: es => do
    let subs ← registered
    match ← deliver handle e (Subscription.handlersFor subs (Named.name e)) with
    | .ok () => publish registered handle es
    | .error r => pure (.error r)

end Dispatch

end SessionWatch
