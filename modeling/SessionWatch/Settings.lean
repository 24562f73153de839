import SessionWatch.Cluster.PodWatch
import SessionWatch.LabelsCache
import SessionWatch.Session.Service

/-!
The settings of a monitor, what the command line may put in their place, and the conditions
under which a monitor starts with them.
-/

namespace SessionWatch

structure BackendSettings where
  name : String := "primary"
  address : String := "redis://127.0.0.1:6379"
  enabled : Bool := true
  deriving DecidableEq

structure RedisSettings where
  /-- Whether keys are kept in the process instead. -/
  mock : Bool := false
  backends : List BackendSettings := []
  connectTimeoutSecs : UInt64 := 5
  connectRetries : UInt64 := 2
  deriving DecidableEq

structure Settings where
  port : UInt16 := 8080
  kubeconfig : Option String := none
  podNamespace : Option String := none
  observeeLabels : Labels := ∅
  poolSetKey : String := "gpu-agent-pools"
  poolLabel : String := "agentpool"
  /-- Zero keeps the labels forever. -/
  poolLabelsTtlSecs : UInt64 := 0
  enqueueStream : String := "enqueue-session"
  deleteStream : String := "delete-session"
  sessionLabel : String := "sessionId"
  managedLabel : String := "managed"
  filterAdded : Bool := false
  redis : RedisSettings := {}
  shutdownGraceSecs : UInt64 := 60
  deriving DecidableEq

structure RunArguments where
  config : Option String := none
  port : Option UInt16 := none
  kubeconfig : Option String := none
  podNamespace : Option String := none
  redisMock : Option Bool := none
  deriving DecidableEq

def RedisSettings.enabledBackends (r : RedisSettings) : List BackendSettings :=
  r.backends.filter (·.enabled)

namespace Settings

def milliseconds (seconds : UInt64) : Nat := seconds.toNat * 1000

/-- The keys that must not be empty, by the names of their fields. -/
def required (s : Settings) : List (String × String) :=
  [("gpu_agent_pool_set_key", s.poolSetKey), ("enqueue_session_stream_key", s.enqueueStream),
    ("delete_session_stream_key", s.deleteStream), ("session_id_label", s.sessionLabel),
    ("agent_pool_label", s.poolLabel)]

/-- The first reason not to start. -/
def objection? (s : Settings) : Option String :=
  match s.required.find? fun f => f.2 == "" with
  | some f => some (f.1 ++ " must not be empty")
  | none =>
    if s.redis.mock then none
    else if s.redis.enabledBackends.isEmpty then
      some "no redis backend is enabled and mock mode is off"
    else if s.redis.connectTimeoutSecs = 0 then
      some "redis.connect_timeout_secs must be positive"
    else none

def validate (s : Settings) : Result Unit :=
  match s.objection? with
  | some message => .error (.of (.settings (.invalid message)))
  | none => .ok ()

/-- The command line wins; its empty namespace stands for all of them. -/
def override (s : Settings) (a : RunArguments) : Settings :=
  { s with
      port := a.port.getD s.port
      kubeconfig := a.kubeconfig.or s.kubeconfig
      podNamespace :=
        match a.podNamespace with
        | some ns => if ns = "" then none else some ns
        | none => s.podNamespace
      redis := { s.redis with mock := a.redisMock.getD s.redis.mock } }

def podRules (s : Settings) : Cluster.PodWatch.Rules :=
  ⟨s.sessionLabel, s.managedLabel, s.filterAdded⟩

def streams (s : Settings) : Session.Streams := ⟨s.enqueueStream, s.deleteStream⟩

def labelsCache (s : Settings) : LabelsCache :=
  ⟨s.poolSetKey, s.poolLabel, milliseconds s.poolLabelsTtlSecs⟩

def connectTimeout (s : Settings) : Nat := milliseconds s.redis.connectTimeoutSecs

def shutdownGrace (s : Settings) : Nat := milliseconds s.shutdownGraceSecs

end Settings

end SessionWatch
