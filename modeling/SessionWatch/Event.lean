import SessionWatch.Table

/-!
Facts about nodes and pods as events. An event has a name that depends on the kind of fact
alone and an identity of its own: two events with equal contents are still two.
-/

namespace SessionWatch

/-- A node as one callback sees it. -/
structure Node where
  name : String
  /-- The version of its driver, empty where it is not known. -/
  driverVersion : String := ""
  labels : Labels := ∅
  deriving DecidableEq

/-- A pod as one callback sees it; what is not known is empty. -/
structure Pod where
  name : String
  ns : String := ""
  /-- Empty for a pod that belongs to no session. -/
  sessionId : String := ""
  nodeName : String := ""
  ip : String := ""
  deriving DecidableEq

def Pod.identity (p : Pod) : Pod := { name := p.name, ns := p.ns, sessionId := p.sessionId }

inductive NodeChange where
  | add | update | delete | recordProvision | updateLabels
  deriving DecidableEq

inductive PodChange where
  | add | delete | ready | recordSchedule
  deriving DecidableEq

inductive Fact where
  | node (change : NodeChange) (node : Node)
  | nodeWatchFailed (message : String)
  | pod (change : PodChange) (pod : Pod)
  | podWatchFailed (message : String)
  deriving DecidableEq

def NodeChange.eventName : NodeChange → String
  | .add => "NodeAddEvent"
  | .update => "NodeUpdateEvent"
  | .delete => "NodeDeleteEvent"
  | .recordProvision => "NodeRecordNodeProvisionEvent"
  | .updateLabels => "NodeUpdateLabelsCacheEvent"

def PodChange.eventName : PodChange → String
  | .add => "PodAddEvent"
  | .delete => "PodDeleteEvent"
  | .ready => "PodReadyEvent"
  | .recordSchedule => "PodRecordPodScheduleEvent"

def Fact.eventName : Fact → String
  | .node change _ => change.eventName
  | .nodeWatchFailed _ => "NodeInformerErrorEvent"
  | .pod change _ => change.eventName
  | .podWatchFailed _ => "PodInformerErrorEvent"

/-- What makes an event one of its own: a number given out once, and the wall clock. -/
structure Stamp where
  serial : Nat
  wall : Int64
  deriving DecidableEq

structure Event where
  stamp : Stamp
  fact : Fact
  metadata : Labels := ∅

namespace Event

def name (e : Event) : String := e.fact.eventName

def same (a b : Event) : Bool := a.stamp.serial == b.stamp.serial

end Event

end SessionWatch
