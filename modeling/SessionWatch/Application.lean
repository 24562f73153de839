import SessionWatch.Cluster.Kubeconfig
import SessionWatch.Cluster.Watch
import SessionWatch.Pipeline
import SessionWatch.Probe
import SessionWatch.Storage.Redis.Dial
import SessionWatch.Supervisor

/-!
The monitor as a whole: it is built over its backends and then runs a probe server and two
informers under one supervisor until it is told to stop or one of them fails.
-/

namespace SessionWatch

/-- What a monitor finds around it. -/
structure Surroundings where
  /-- The redis server at an address. -/
  peerAt : String → Storage.Redis.Peer := fun _ => .absent
  file? : String → Option String := fun _ => none
  /-- The client configuration that the environment names. -/
  kubeconfig : Option String := none
  /-- Whether the port of the probe server is taken. -/
  portTaken : Bool := false

inductive Failure where
  | backends (r : Report)
  | repository (r : Report)
  | client (r : Report)
  | stopped (r : Report)
  deriving DecidableEq

def Failure.text : Failure → String
  | .backends _ => "Failed to create key-value backends"
  | .repository _ => "Failed to connect key-value repository"
  | .client _ => "Failed to initialize Kubernetes client"
  | .stopped _ => "Application stopped with error"

def Settings.pipeline (s : Settings) (backends : Nat) (subscriptions : List (Subscription Handler))
    (schema : Cluster.Schema := .v1) : Pipeline :=
  ⟨⟨backends, s.streams, s.labelsCache⟩, subscriptions, s.observeeLabels, s.podRules, schema⟩

namespace Settings

def dialOptions (s : Settings) : Storage.Redis.DialOptions :=
  ⟨s.connectTimeout, s.redis.connectRetries.toNat⟩

/-- Connect to backends in turn, up to the first that cannot be reached. -/
def dialAll (s : Settings) (peerAt : String → Storage.Redis.Peer) :
    List BackendSettings → List Storage.Redis.Connection × Option Report
  | [] => ([], none)
  | b :: bs =>
    match Storage.Redis.dial b.name b.address s.dialOptions (peerAt b.address) with
    | .error r => ([], some r)
    | .ok c =>
      let rest := s.dialAll peerAt bs
      (c :: rest.1, rest.2)

/-- The backends: one in the process, or those that are enabled. -/
def openBackends (s : Settings) (peerAt : String → Storage.Redis.Peer) :
    List Storage.Backend × Option Report :=
  if s.redis.mock then ([.memory { name := "mock" }], none)
  else
    let a := s.dialAll peerAt s.redis.enabledBackends
    (a.1.map .redis, a.2)

end Settings

structure Application where
  settings : Settings
  pipeline : Pipeline

namespace Application

/-- Open the backends and have each answer a ping. -/
def build (s : Settings) (around : Surroundings) (clock : Clock) :
    World × Except Failure Application :=
  let opened := s.openBackends around.peerAt
  let w : World := { clock, backends := opened.1 }
  match opened.2 with
  | some r => (w, .error (.backends r))
  | none =>
    match (Storage.fanOut opened.1.length .ping).run w with
    | (w, some (.ok _)) => (w, .ok ⟨s, s.pipeline opened.1.length Handler.wired⟩)
    | (w, some (.error r)) => (w, .error (.repository r))
    | (w, none) => (w, .error (.repository .external))

structure Asked where
  path : String
  question : Cluster.Question
  deriving DecidableEq

/-- Nodes belong to no namespace. -/
def path (a : Application) (kind : Resource) : String :=
  match kind with
  | .nodes => Cluster.resourcePath none kind.plural
  | .pods => Cluster.resourcePath a.settings.podNamespace kind.plural

structure Running where
  world : World
  nodes : Cluster.Informer := .start Resource.nodes.plural
  pods : Cluster.Informer := .start Resource.pods.plural
  /-- The questions that were answered. -/
  asked : List Asked := []

namespace Running

def informer (r : Running) : Resource → Cluster.Informer
  | .nodes => r.nodes
  | .pods => r.pods

def withInformer (r : Running) (kind : Resource) (i : Cluster.Informer) : Running :=
  match kind with
  | .nodes => { r with nodes := i }
  | .pods => { r with pods := i }

end Running

def callAll (p : Pipeline) (kind : Resource) : List Cluster.Callback → Plan Unit
  | [] => pure ()
  | c :: cs => do
    p.on kind c
    callAll p kind cs

/-- One response to one informer, and whether the process lives on. -/
def hear (a : Application) (r : Running) (kind : Resource) (answer : Cluster.Response) :
    Running × Bool :=
  let i := r.informer kind
  let heard := i.hear answer
  let done := (callAll a.pipeline kind heard.2).run r.world
  ({ r.withInformer kind heard.1 with
      world := done.1
      asked := r.asked ++ [⟨a.path kind, i.phase.question⟩] }, done.2.isSome)

/-- Responses in turn; the last part names the informer that the process died in. -/
def hearAll (a : Application) (r : Running) :
    List (Resource × Cluster.Response) → Running × Option Resource
  | [] => (r, none)
  | x :: xs =>
    match a.hear r x.1 x.2 with
    | (r, true) => a.hearAll r xs
    | (r, false) => (r, some x.1)

def workers : List String := ["probe-server", "pod-informer", "node-informer"]

def workerOf : Resource → Nat
  | .pods => 1
  | .nodes => 2

def stopAll (s : Supervisor) (is : List Nat) : Supervisor :=
  is.foldl (fun s i => s.endOne i .done) s

def firstEnding (i : Nat) (e : Ending) : Supervisor :=
  stopAll ((Supervisor.start workers).endOne i e)
    ((List.range workers.length).filter (· ≠ i))

def stopping : Supervisor :=
  stopAll ((Supervisor.start workers).step .cancelled) (List.range workers.length)

def verdict (s : Supervisor) : Except Failure Unit :=
  match s.settle.outcome? with
  | some (.error r) => .error (.stopped r)
  | _ => .ok ()

/-- Run over the responses of the server, until a signal comes behind the last one. -/
def run (a : Application) (around : Surroundings) (w : World)
    (script : List (Resource × Cluster.Response)) : Running × Except Failure Unit :=
  match Cluster.Target.find around.file? around.kubeconfig a.settings.kubeconfig with
  | .error r => ({ world := w }, .error (.client r))
  | .ok _ =>
    match Probe.serve around.portTaken with
    | .error r => ({ world := w }, verdict (firstEnding 0 (.failed r)))
    | .ok () =>
      match a.hearAll { world := w } script with
      | (r, some kind) => (r, verdict (firstEnding (workerOf kind) .panicked))
      | (r, none) => (r, verdict stopping)

end Application

end SessionWatch
