import SessionWatch.Cluster.Store

/-!
Listening to a watch. Each item becomes callbacks as a whole, until the listener is told to stop
or the watch ends; only the second is a failure.
-/

namespace SessionWatch.Cluster

/-- What comes to a listener that is free. -/
inductive Prompt where
  | item (i : Item)
  /-- The watch has nothing to yield any more. -/
  | ended
  | cancelled

structure Listening where
  /-- What is watched, in the plural. -/
  resource : String
  store : Store := {}
  /-- How the listening came to an end. -/
  outcome? : Option (Result Unit) := none

namespace Listening

def endedEarly (resource : String) : Report :=
  .of (.cluster (.watchFailed resource "watch stream ended"))

/-- Take one prompt. Nothing is heard after the end. -/
def step (l : Listening) (p : Prompt) : Listening × List Callback :=
  match l.outcome?, p with
  | some _, _ => (l, [])
  | none, .item i =>
    let a := l.store.receive i
    ({ l with store := a.1 }, a.2)
  | none, .ended => ({ l with outcome? := some (.error (endedEarly l.resource)) }, [])
  | none, .cancelled => ({ l with outcome? := some (.ok ()) }, [])

def run (l : Listening) : List Prompt → Listening × List Callback
  | [] => (l, [])
  | p :: ps =>
    let a := l.step p
    let b := a.1.run ps
    (b.1, a.2 ++ b.2)

end Listening

end SessionWatch.Cluster
