import SessionWatch.Dispatch
import SessionWatch.LabelsCache
import SessionWatch.Session.Service

/-!
What the subscribers do with the events they are handed. One records node provisioning and
keeps the labels cache, one moves sessions on, and onlookers write down what passes them.
-/

namespace SessionWatch

structure Workplace where
  /-- How many backends there are. -/
  backends : Nat
  streams : Session.Streams
  labelsCache : LabelsCache
  deriving DecidableEq

inductive Handler where
  | nodes
  | pods
  /-- Sees an event before the others, and fails on those of some names. -/
  | offered (failing : List String)
  /-- Sees an event after the others. -/
  | handled
  deriving DecidableEq

namespace Workplace

/-- Record when a node was provisioned; without a time from the backends, leave it. -/
def recordProvision (w : Workplace) (node : Node) : Plan (Result Unit) := do
  match ← Storage.fanOut w.backends .time with
  | .error _ => pure (.ok ())
  | .ok time =>
    Plan.note (.called (.setNode node.name time))
    Session.setNode node.name time
    pure (.ok ())

def recordSchedule (w : Workplace) (pod : Pod) : Plan (Result Unit) := do
  match ← Storage.fanOut w.backends .time with
  | .error r => pure (.error (r.because (.handling .storage)))
  | .ok time =>
    Plan.note (.called (.setPod pod.sessionId time))
    Session.setPod pod.sessionId time
    pure (.ok ())

def deleteSession (w : Workplace) (pod : Pod) : Plan (Result Unit) := do
  let d : Session.Deletable := ⟨pod.sessionId⟩
  Plan.note (.called (.deletable d))
  match ← Session.setDeletable w.backends w.streams d with
  | .error r => pure (.error (r.because (.handling .session)))
  | .ok _ => pure (.ok ())

/-- Enqueue the session of a ready pod. Both times must be known; the node's is asked first. -/
def enqueueSession (w : Workplace) (pod : Pod) : Plan (Result Unit) := do
  Plan.note (.called (.getNode pod.nodeName))
  match ← Session.getNode pod.nodeName with
  | .error r => pure (.error (r.because (.handling .session)))
  | .ok provisioned =>
    Plan.note (.called (.getPod pod.sessionId))
    match ← Session.getPod pod.sessionId with
    | .error r => pure (.error (r.because (.handling .session)))
    | .ok scheduled =>
      let ready : Session.Ready := ⟨pod.sessionId, pod.nodeName, provisioned, scheduled, pod.ip⟩
      Plan.note (.called (.ready ready))
      match ← Session.setReady w.backends w.streams ready with
      | .error r => pure (.error (r.because (.handling .session)))
      | .ok _ => pure (.ok ())

def handleNodes (w : Workplace) : Fact → Plan (Result Unit)
  | .node .recordProvision node => w.recordProvision node
  | .node .updateLabels node => w.labelsCache.update w.backends node
  | _ => pure (.ok ())

def handlePods (w : Workplace) : Fact → Plan (Result Unit)
  | .pod .delete pod => w.deleteSession pod
  | .pod .recordSchedule pod => w.recordSchedule pod
  | .pod .ready pod => w.enqueueSession pod
  | _ => pure (.ok ())

def handle (w : Workplace) : Handler → Event → Plan (Result Unit)
  | .nodes, e => w.handleNodes e.fact
  | .pods, e => w.handlePods e.fact
  | .offered failing, e => do
    Plan.note (.offered e)
    if failing.contains e.name then pure (.error (.of (.handling .storage))) else pure (.ok ())
  | .handled, e => do
    Plan.note (.handled e)
    pure (.ok ())

end Workplace

namespace Handler

def nodeEvents : List String :=
  ["NodeAddEvent", "NodeUpdateEvent", "NodeDeleteEvent", "NodeRecordNodeProvisionEvent",
    "NodeUpdateLabelsCacheEvent", "NodeInformerErrorEvent"]

def podEvents : List String :=
  ["PodAddEvent", "PodDeleteEvent", "PodReadyEvent", "PodRecordPodScheduleEvent"]

/-- The subscriptions of a running monitor. -/
def wired : List (Subscription Handler) := [⟨nodeEvents, .nodes⟩, ⟨podEvents, .pods⟩]

/-- The subscriptions of a monitor that is watched at both ends. -/
def watched : List (Subscription Handler) := ⟨[], .offered []⟩ :: (wired ++ [⟨[], .handled⟩])

end Handler

end SessionWatch
