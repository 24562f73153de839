import SessionWatch.Dispatch

/-!
Handlers that subscribe others and publish while they handle. A subscription made during the
delivery of an event is in force from the next event on, and a nested delivery is over before
the one around it goes on. Whether a delivery ends is not known beforehand, so the depth to
which its steps go is bounded. Handlers can be scripts, which are known before they are run.
-/

namespace SessionWatch.Dispatch

/-- What a handler does at a point of its work, and where it goes on. -/
inductive Act (ι ε σ κ : Type) where
  | finish (r : Result Unit)
  /-- Something that does not concern the dispatcher. -/
  | work (f : σ → σ × κ)
  | subscribe (s : Subscription ι) (next : κ)
  /-- Ask how many subscriptions there are. -/
  | count (next : Nat → κ)
  | publish (events : List ε) (next : Result Unit → κ)

/-- How handlers go about events: the points of their work and what they do at each. -/
structure Conduct (ι ε σ : Type) where
  Point : Type
  start : ι → ε → Point
  act : Point → Act ι ε σ Point

/-- The subscriptions in force and what else there is. -/
structure Desk (ι σ : Type) where
  subscriptions : List (Subscription ι)
  own : σ

/-- Work at a desk, without a result where its steps go too deep. -/
abbrev Work (ι σ : Type) := StateT (Desk ι σ) Option

namespace Conduct

variable {ι ε σ : Type}

def registered : Work ι σ (List (Subscription ι)) := do
  let d ← get
  pure d.subscriptions

/-- Go on from a point, with steps so deep at most: each next one is a step deeper, and so are
those of a nested delivery. -/
def runWithin [Named ε] (c : Conduct ι ε σ) : Nat → c.Point → Work ι σ (Result Unit)
  | 0, _ => fun _ => none
  | n + 1, k =>
    match c.act k with
    | .finish r => pure r
    | .work f => do
      let d ← get
      set { d with own := (f d.own).1 }
      c.runWithin n (f d.own).2
    | .subscribe s next => do
      modify fun d => { d with subscriptions := d.subscriptions ++ [s] }
      c.runWithin n next
    | .count next => do
      let subs ← registered
      c.runWithin n (next subs.length)
    | .publish es next => do
      let r ← Dispatch.publish registered (fun i e => c.runWithin n (c.start i e)) es
      c.runWithin n (next r)

def handleWithin [Named ε] (c : Conduct ι ε σ) (n : Nat) (i : ι) (e : ε) :
    Work ι σ (Result Unit) :=
  c.runWithin n (c.start i e)

def publishWithin [Named ε] (c : Conduct ι ε σ) (n : Nat) (es : List ε) :
    Work ι σ (Result Unit) :=
  Dispatch.publish registered (c.handleWithin n) es

end Conduct

mutual

inductive Move (τ : Type) where
  | subscribe (names : List String) (handler : Script τ)
  | publish (events : List String)

/-- A handler by what it does: the moves it makes on an event, and the events it fails on. Its
tag tells it from others. -/
inductive Script (τ : Type) where
  | mk (tag : τ) (moves : List (String × List (Move τ)))
    (failures : List (String × HandlingError))

end

variable {τ : Type}

inductive Outcome where
  /-- So many subscriptions are there now. -/
  | subscribed (count : Nat)
  | published (result : Result Unit)

inductive Mark (τ : Type) where
  | called (handler : τ) (event : String)
  | nested (outcome : Outcome)

namespace Script

def tag : Script τ → τ
  | .mk tag _ _ => tag

def movesOn (s : Script τ) (event : String) : List (Move τ) :=
  match s with
  | .mk _ moves _ => ((moves.find? fun m => m.1 == event).map (·.2)).getD []

def resultOn (s : Script τ) (event : String) : Result Unit :=
  match s with
  | .mk _ _ failures =>
    match failures.find? fun f => f.1 == event with
    | some f => .error (.of (.handling f.2))
    | none => .ok ()

/-- A point of a script: the moves still to make and the result to come to in the end. -/
inductive Point (τ : Type) where
  | called (script : Script τ) (event : String)
  | ahead (moves : List (Move τ)) (result : Result Unit)
  | subscribed (moves : List (Move τ)) (result : Result Unit)
  | noting (outcome : Outcome) (moves : List (Move τ)) (result : Result Unit)

/-- Make the moves in turn; what a nested publication comes to is only noted. -/
def act : Point τ → Act (Script τ) String (List (Mark τ)) (Point τ)
  | .called s event =>
    .work fun trace =>
      (trace ++ [.called s.tag event], .ahead (s.movesOn event) (s.resultOn event))
  | .ahead [] r => .finish r
  | .ahead (.subscribe names handler :: ms) r => .subscribe ⟨names, handler⟩ (.subscribed ms r)
  | .ahead (.publish events :: ms) r => .publish events fun x => .noting (.published x) ms r
  | .subscribed ms r => .count fun n => .noting (.subscribed n) ms r
  | .noting o ms r => .work fun trace => (trace ++ [.nested o], .ahead ms r)

def conduct : Conduct (Script τ) String (List (Mark τ)) := ⟨Point τ, .called, act⟩

end Script

mutual

/-- The moves of a list, those inside included, each counted with its event names. -/
def Move.weight : Move τ → Nat
  | .subscribe names handler => 1 + names.length + handler.weight
  | .publish events => 1 + events.length

def Script.weight : Script τ → Nat
  | .mk _ moves _ => 1 + Move.weightOfBranches moves

def Move.weightOfBranches : List (String × List (Move τ)) → Nat
  | [] => 0
  | (_, ms) :: bs => 1 + Move.weightOfList ms + Move.weightOfBranches bs

def Move.weightOfList : List (Move τ) → Nat
  | [] => 0
  | m :: ms => m.weight + Move.weightOfList ms

end

/-- How deep steps are nested or follow each other if deliveries end: a handler that comes to
handle the same event inside its own handling of it, with no other handlers in force than before,
comes to it again and again. So as long as the same handlers are in force, a chain of deliveries
has each handler and each event together once at most; and a move takes three steps. -/
def depthFor (moves : List (Move τ)) : Nat :=
  let n := Move.weightOfList moves + 1
  3 * n * n * n * n

structure Board (τ : Type) where
  subscriptions : List (Subscription (Script τ)) := []
  trace : List (Mark τ) := []

def Board.make (depth : Nat) (b : Board τ) : Move τ → Option (Outcome × Board τ)
  | .subscribe names handler =>
    let subs := b.subscriptions ++ [⟨names, handler⟩]
    some (.subscribed subs.length, { b with subscriptions := subs })
  | .publish events =>
    match (Script.conduct.publishWithin depth events).run ⟨b.subscriptions, b.trace⟩ with
    | some (r, d) => some (.published r, ⟨d.subscriptions, d.own⟩)
    | none => none

end SessionWatch.Dispatch
