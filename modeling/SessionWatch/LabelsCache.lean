import SessionWatch.Storage.FanOut

/-!
The labels of each agent pool, kept in the backends under the name of the pool and indexed in
one set.
-/

namespace SessionWatch

structure LabelsCache where
  /-- The set of all pools. -/
  setKey : String
  /-- The node label that names the pool of a node. -/
  poolLabel : String
  /-- Milliseconds that an entry is kept; zero keeps it forever. -/
  ttl : Nat
  deriving DecidableEq

namespace LabelsCache

def payload (labels : Labels) : String := (Json.ofPairs labels.entries).render

def record (c : LabelsCache) (pool : String) (labels : Labels) : Storage.Record :=
  Storage.Record.expiresAfter ⟨pool, payload labels, none⟩ c.ttl

/-- Write the labels of a node for its pool; a node without a pool is passed over. -/
def update (c : LabelsCache) (backends : Nat) (node : Node) : Plan (Result Unit) :=
  match node.labels.get? c.poolLabel with
  | none => pure (.ok ())
  | some pool => do
    match ← Storage.fanOut backends (.index c.setKey [c.record pool node.labels]) with
    | .ok _ => pure (.ok ())
    | .error r => pure (.error ((r.because (.handling .storage)).attach (.agentPool pool)))

end LabelsCache

end SessionWatch
