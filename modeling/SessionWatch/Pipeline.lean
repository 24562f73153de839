import SessionWatch.Aggregate
import SessionWatch.Cluster.NodeWatch
import SessionWatch.Cluster.PodWatch
import SessionWatch.Handler
import SessionWatch.World

/-!
From watch callbacks to the subscribers. A callback about a node is staged as one batch and
published whole; the facts of a callback about a pod are published one by one. What becomes of
them is not told back to the watch: the next callback is the retry.
-/

namespace SessionWatch

structure Pipeline where
  workplace : Workplace
  subscriptions : List (Subscription Handler) := Handler.watched
  /-- The labels that a node must have. -/
  observee : Labels := ∅
  rules : Cluster.PodWatch.Rules := {}
  schema : Cluster.Schema := .v1

namespace Pipeline

open Cluster

def nodeAggregate : String := "nodes.NodeAggregate"

def publish (p : Pipeline) (events : List Event) : Plan (Result Unit) :=
  Dispatch.publish (pure p.subscriptions) p.workplace.handle events

/-- Stage facts, each under a stamp of its own. -/
def stage (a : Aggregate) : List Fact → Plan Aggregate
  | [] => pure a
  | f :: fs => do
    let s ← Plan.stamp
    stage (a.add s f) fs

def publishBatch (p : Pipeline) (b : NodeWatch.Batch) : Plan Unit := do
  let a ← stage ⟨b.node, nodeAggregate, []⟩ b.facts
  let _ ← p.publish a.take.1
  pure ()

/-- Publish a fact that belongs to no aggregate. -/
def announce (p : Pipeline) (f : Fact) : Plan Unit := do
  let s ← Plan.stamp
  let _ ← p.publish [⟨s, f, ∅⟩]
  pure ()

def announceAll (p : Pipeline) : List Fact → Plan Unit
  | [] => pure ()
  | f :: fs => do
    p.announce f
    p.announceAll fs

def onNode (p : Pipeline) (c : Callback) : Plan Unit :=
  match c with
  | .failed message => p.announce (.nodeWatchFailed message)
  | c =>
    match NodeWatch.batch? p.schema p.observee c with
    | some b => p.publishBatch b
    | none => pure ()

def onPod (p : Pipeline) (c : Callback) : Plan Unit :=
  p.announceAll (PodWatch.facts p.schema p.rules c)

end Pipeline

inductive Resource where
  | nodes
  | pods
  deriving DecidableEq

def Resource.plural : Resource → String
  | .nodes => "nodes"
  | .pods => "pods"

def Pipeline.on (p : Pipeline) : Resource → Cluster.Callback → Plan Unit
  | .nodes => p.onNode
  | .pods => p.onPod

end SessionWatch
