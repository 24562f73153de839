import SessionWatch.Settings
import SessionWatch.Text.Decimal
import SessionWatch.Text.Yaml

/-!
Settings as a YAML document. Fields that are not known are passed over, a known one may stand
there once, and where nothing is written the default stands.
-/

namespace SessionWatch

namespace Yaml

def text? : Yaml → Option String
  | .scalar t _ => some t
  | _ => none

/-- The ways to write that there is no value. -/
def nulls : List String := ["", "~", "null", "Null", "NULL"]

def optionalText? : Yaml → Option (Option String)
  | .scalar t plain => some (if plain && nulls.contains t then none else some t)
  | _ => none

def boolOf? (t : String) : Option Bool :=
  if ["true", "True", "TRUE"].contains t then some true
  else if ["false", "False", "FALSE"].contains t then some false
  else none

def bool? : Yaml → Option Bool
  | .scalar t true => boolOf? t
  | _ => none

def digits? (base : Nat) (cs : List Char) : Option Nat :=
  if cs.isEmpty then none
  else cs.foldl (fun n c =>
    match n, Quoted.hexValue? c with
    | some n, some d => if d < base then some (n * base + d) else none
    | _, _ => none) (some 0)

/-- Zeros in front of a number make it a text. -/
def hasLeadingZero (cs : List Char) : Bool :=
  1 < cs.length && cs.head? = some '0' && cs.all Char.isDigit

/-- An unsigned number in decimal, or behind `0x`, `0o` or `0b`; a plus sign may stand
before it. -/
def unsignedOf? (cs : List Char) : Option Nat :=
  let cs := if cs.head? = some '+' then cs.tail else cs
  match cs with
  | '0' :: 'x' :: ds => digits? 16 ds
  | '0' :: 'o' :: ds => digits? 8 ds
  | '0' :: 'b' :: ds => digits? 2 ds
  | cs => if hasLeadingZero cs then none else Decimal.toNat? cs

def unsigned? (bits : Nat) : Yaml → Option Nat
  | .scalar t true =>
    match unsignedOf? t.toList with
    | some n => if n < 1 <<< bits then some n else none
    | none => none
  | _ => none

/-- The items of a list, which may be left out. -/
def list? {α : Type} (item : Yaml → Option α) : Yaml → Option (List α)
  | .list items => items.mapM item
  | .scalar "" true => some []
  | _ => none

def pairs? : Yaml → Option (List (Yaml × Yaml))
  | .map entries => some entries
  | .scalar "" true => some []
  | _ => none

/-- Text under text; the last one under a key stays. -/
def labels? (y : Yaml) : Option Labels := do
  let entries ← y.pairs?
  let pairs ← entries.mapM fun e => do
    let k ← e.1.text?
    let v ← e.2.text?
    pure (k, v)
  pure (.ofList pairs)

/-- The values of known fields, of which none may be repeated. -/
def fields? (known : List String) (y : Yaml) : Option (Table Yaml) := do
  let entries ← y.pairs?
  entries.foldlM (fun (t : Table Yaml) e => do
    let name ← e.1.text?
    if known.contains name then
      if t.contains name then none else some (t.insert name e.2)
    else some t) ∅

end Yaml

/-- The value of a field, or what stands for it where it is missing. -/
def fieldOr {α : Type} (fields : Table Yaml) (name : String) (missing : α)
    (read : Yaml → Option α) : Option α :=
  match fields.get? name with
  | some y => read y
  | none => some missing

namespace BackendSettings

def ofYaml? (y : Yaml) : Option BackendSettings := do
  let fields ← y.fields? ["name", "address", "enabled"]
  let d : BackendSettings := {}
  pure
    { name := ← fieldOr fields "name" d.name Yaml.text?
      address := ← fieldOr fields "address" d.address Yaml.text?
      enabled := ← fieldOr fields "enabled" d.enabled Yaml.bool? }

end BackendSettings

namespace RedisSettings

def word? (y : Yaml) : Option UInt64 := (y.unsigned? 64).map .ofNat

def ofYaml? (y : Yaml) : Option RedisSettings := do
  let fields ← y.fields? ["mock", "backends", "connect_timeout_secs", "connect_retries"]
  let d : RedisSettings := {}
  pure
    { mock := ← fieldOr fields "mock" d.mock Yaml.bool?
      backends := ← fieldOr fields "backends" d.backends (Yaml.list? BackendSettings.ofYaml?)
      connectTimeoutSecs := ← fieldOr fields "connect_timeout_secs" d.connectTimeoutSecs word?
      connectRetries := ← fieldOr fields "connect_retries" d.connectRetries word? }

end RedisSettings

namespace Settings

def fieldNames : List String :=
  ["port", "kubeconfig", "pod_namespace", "gpu_observee_labels", "gpu_agent_pool_set_key",
    "agent_pool_label", "agent_pool_labels_ttl_secs", "enqueue_session_stream_key",
    "delete_session_stream_key", "session_id_label", "managed_label",
    "filter_unmanaged_pods_on_add", "redis", "shutdown_grace_secs"]

def ofYaml? (y : Yaml) : Option Settings := do
  let fields ← y.fields? fieldNames
  let d : Settings := {}
  pure
    { port := ← fieldOr fields "port" d.port fun y => (y.unsigned? 16).map .ofNat
      kubeconfig := ← fieldOr fields "kubeconfig" d.kubeconfig Yaml.optionalText?
      podNamespace := ← fieldOr fields "pod_namespace" d.podNamespace Yaml.optionalText?
      observeeLabels := ← fieldOr fields "gpu_observee_labels" d.observeeLabels Yaml.labels?
      poolSetKey := ← fieldOr fields "gpu_agent_pool_set_key" d.poolSetKey Yaml.text?
      poolLabel := ← fieldOr fields "agent_pool_label" d.poolLabel Yaml.text?
      poolLabelsTtlSecs :=
        ← fieldOr fields "agent_pool_labels_ttl_secs" d.poolLabelsTtlSecs RedisSettings.word?
      enqueueStream := ← fieldOr fields "enqueue_session_stream_key" d.enqueueStream Yaml.text?
      deleteStream := ← fieldOr fields "delete_session_stream_key" d.deleteStream Yaml.text?
      sessionLabel := ← fieldOr fields "session_id_label" d.sessionLabel Yaml.text?
      managedLabel := ← fieldOr fields "managed_label" d.managedLabel Yaml.text?
      filterAdded := ← fieldOr fields "filter_unmanaged_pods_on_add" d.filterAdded Yaml.bool?
      redis := ← fieldOr fields "redis" d.redis RedisSettings.ofYaml?
      shutdownGraceSecs :=
        ← fieldOr fields "shutdown_grace_secs" d.shutdownGraceSecs RedisSettings.word? }

/-- The settings of a text that is one document at most. -/
def ofText? (text : String) : Option Settings :=
  match Yaml.parse? text with
  | some [] => ofYaml? Yaml.absent
  | some [y] => ofYaml? y
  | _ => none

def parse (text : String) : Result Settings :=
  match ofText? text with
  | some s => .ok s
  | none => .error (Report.external.because (.settings .unparsed))

/-- The settings of a run: of the file that the command line names, or the defaults, with what
the command line puts in their place, and fit to start with. -/
def load (file? : String → Option String) (a : RunArguments) : Result Settings := do
  let s ← match a.config with
    | none => pure {}
    | some path =>
      match file? path with
      | some text => parse text
      | none => .error (Report.external.because (.settings (.unread path)))
  let s := s.override a
  s.validate
  pure s

end Settings

end SessionWatch
