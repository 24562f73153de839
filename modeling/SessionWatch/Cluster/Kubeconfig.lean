import SessionWatch.Report
import SessionWatch.Settings.Document
import SessionWatch.Text.Base64
import SessionWatch.Text.Uri

/-!
The configuration of a client of the cluster: a document with servers, users and contexts
that pair them, of which the current one counts.
-/

namespace SessionWatch

namespace Yaml

/-- Digits, a point, digits and an exponent, of which not all need to be there. -/
def isDecimalFloat (cs : List Char) : Bool :=
  let whole := cs.takeWhile Char.isDigit
  let rest := cs.dropWhile Char.isDigit
  let fraction := match rest with
    | '.' :: ds => ds.takeWhile Char.isDigit
    | _ => []
  let rest := match rest with
    | '.' :: ds => ds.dropWhile Char.isDigit
    | _ => rest
  let isExponent := match rest with
    | [] => true
    | e :: ds =>
      let ds := if ds.head?.any fun c => c = '+' || c = '-' then ds.tail else ds
      (e = 'e' || e = 'E') && ds ≠ [] && ds.all Char.isDigit
  (whole ≠ [] || fraction ≠ []) && isExponent

def isNumber (cs : List Char) : Bool :=
  let unsigned := if cs.head?.any fun c => c = '+' || c = '-' then cs.tail else cs
  !hasLeadingZero unsigned &&
    ((unsignedOf? unsigned).isSome && unsigned.head? ≠ some '+' ||
      isDecimalFloat unsigned ||
      [".inf", ".Inf", ".INF", ".nan", ".NaN", ".NAN"].contains (String.ofList unsigned))

/-- Text that is neither a null nor a truth value nor a number, unless it is quoted. -/
def properText? : Yaml → Option String
  | .scalar t plain =>
    if plain && (nulls.contains t || (boolOf? t).isSome || isNumber t.toList) then none
    else some t
  | _ => none

def isNull : Yaml → Bool
  | .scalar t plain => plain && nulls.contains t
  | _ => false

/-- Two keys of which one takes the place of the other. -/
def sameKey (a b : Yaml) : Bool :=
  match a, b with
  | .scalar s _, .scalar t _ => s == t && a.properText?.isSome == b.properText?.isSome
  | _, _ => false

def hasRepeats : List Yaml → Bool
  | [] => false
  | k :: ks => ks.any (sameKey k) || hasRepeats ks

mutual

/-- Whether no map in a node has two entries under one key. -/
def isProper : Yaml → Bool
  | .scalar _ _ => true
  | .list items => areProper items
  | .map entries => !hasRepeats (entries.map (·.1)) && areProperEntries entries

def areProper : List Yaml → Bool
  | [] => true
  | y :: ys => y.isProper && areProper ys

def areProperEntries : List (Yaml × Yaml) → Bool
  | [] => true
  | (k, v) :: es => k.isProper && v.isProper && areProperEntries es

end

/-- The fields of a map by name; a null has none. -/
def members (y : Yaml) : Option (Table Yaml) :=
  match y with
  | .map entries => do
    let pairs ← entries.mapM fun e => e.1.properText?.map fun k => (k, e.2)
    pure (.ofList pairs)
  | y => if y.isNull then some ∅ else none

def optional {α : Type} (read : Yaml → Option α) (y : Option Yaml) : Option (Option α) :=
  match y with
  | none => some none
  | some y => if y.isNull then some none else (read y).map some

/-- Items, where null has none. -/
def items {α : Type} (read : Yaml → Option α) : Yaml → Option (List α)
  | .list ys => ys.mapM read
  | y => if y.isNull then some [] else none

end Yaml

namespace Cluster

structure Endpoint where
  server : Option String
  authority : Option String
  authorityData : Option String
  proxyUrl : Option String
  deriving DecidableEq

/-- What a user shows for itself. -/
structure Credentials where
  username : Option String
  password : Option String
  token : Option String
  tokenFile : Option String
  certificate : Option String
  certificateData : Option String
  key : Option String
  keyData : Option String
  /-- The name of a plug-in that provides tokens, and what it is told. -/
  provider : Option (String × Labels)
  /-- Whether a command has to be run for credentials. -/
  command : Bool
  deriving DecidableEq

structure Context where
  cluster : String
  user : String
  ns : Option String
  deriving DecidableEq

/-- Something under a name, which may be empty. -/
structure Entry (α : Type) where
  name : String
  content : Option α
  deriving DecidableEq

structure Kubeconfig where
  kind : Option String := none
  apiVersion : Option String := none
  current : Option String := none
  clusters : List (Entry Endpoint) := []
  users : List (Entry Credentials) := []
  contexts : List (Entry Context) := []
  deriving DecidableEq

def textMember (t : Table Yaml) (name : String) : Option (Option String) :=
  Yaml.optional Yaml.properText? (t.get? name)

namespace Endpoint

def ofYaml? (y : Yaml) : Option Endpoint := do
  let t ← y.members
  let _ ← Yaml.optional Yaml.bool? (t.get? "insecure-skip-tls-verify")
  let _ ← textMember t "tls-server-name"
  pure
    { server := ← textMember t "server"
      authority := ← textMember t "certificate-authority"
      authorityData := ← textMember t "certificate-authority-data"
      proxyUrl := ← textMember t "proxy-url" }

end Endpoint

namespace Credentials

def provider? (y : Yaml) : Option (String × Labels) := do
  let t ← y.members
  let name ← (t.get? "name").bind Yaml.properText?
  let config ← match t.get? "config" with
    | none => some []
    | some y => do
      let m ← y.members
      m.entries.mapM fun e => e.2.properText?.map fun v => (e.1, v)
  pure (name, .ofList config)

def ofYaml? (y : Yaml) : Option Credentials := do
  let t ← y.members
  pure
    { username := ← textMember t "username"
      password := ← textMember t "password"
      token := ← textMember t "token"
      tokenFile := ← textMember t "tokenFile"
      certificate := ← textMember t "client-certificate"
      certificateData := ← textMember t "client-certificate-data"
      key := ← textMember t "client-key"
      keyData := ← textMember t "client-key-data"
      provider := ← Yaml.optional provider? (t.get? "auth-provider")
      command := (← Yaml.optional Yaml.members (t.get? "exec")).isSome }

end Credentials

namespace Context

def ofYaml? (y : Yaml) : Option Context := do
  let t ← y.members
  pure
    { cluster := ← (t.get? "cluster").bind Yaml.properText?
      user := ← (t.get? "user").bind Yaml.properText?
      ns := ← textMember t "namespace" }

end Context

namespace Entry

variable {α : Type}

def ofYaml? (member : String) (read : Yaml → Option α) (y : Yaml) : Option (Entry α) := do
  let t ← y.members
  let name ← (t.get? "name").bind Yaml.properText?
  let content ← Yaml.optional read (t.get? member)
  pure ⟨name, content⟩

def listOf? (t : Table Yaml) (name member : String) (read : Yaml → Option α) :
    Option (List (Entry α)) :=
  match t.get? name with
  | none => some []
  | some y => y.items (ofYaml? member read)

def content? (entries : List (Entry α)) (name : String) : Option α :=
  (entries.find? fun e => e.name == name).bind (·.content)

/-- Entries, and those of others whose names are new. -/
def merge (entries others : List (Entry α)) : List (Entry α) :=
  entries ++ others.filter fun e => !entries.any fun d => d.name == e.name

end Entry

namespace Kubeconfig

def ofYaml? (y : Yaml) : Option Kubeconfig :=
  if y.isProper then do
    let t ← y.members
    pure
      { kind := ← textMember t "kind"
        apiVersion := ← textMember t "apiVersion"
        current := ← textMember t "current-context"
        clusters := ← Entry.listOf? t "clusters" "cluster" Endpoint.ofYaml?
        users := ← Entry.listOf? t "users" "user" Credentials.ofYaml?
        contexts := ← Entry.listOf? t "contexts" "context" Context.ofYaml? }
  else none

def agree (a b : Option String) : Bool := a.isNone || b.isNone || a == b

/-- What an earlier document says wins. -/
def merge? (a b : Kubeconfig) : Option Kubeconfig :=
  if agree a.kind b.kind && agree a.apiVersion b.apiVersion then
    some
      { kind := a.kind.or b.kind
        apiVersion := a.apiVersion.or b.apiVersion
        current := a.current.or b.current
        clusters := Entry.merge a.clusters b.clusters
        users := Entry.merge a.users b.users
        contexts := Entry.merge a.contexts b.contexts }
  else none

def ofText? (text : String) : Option Kubeconfig := do
  let documents ← Yaml.parse? text
  let configs ← documents.mapM ofYaml?
  match configs with
  | [] => some {}
  | c :: cs => cs.foldlM merge? c

end Kubeconfig

/-- Where a client connects to, and as whom. -/
structure Target where
  endpoint : Endpoint
  credentials : Credentials
  ns : String
  deriving DecidableEq

namespace Kubeconfig

def bytesOf (text : String) : List Nat := text.toUTF8.toList.map (·.toNat)

/-- Bytes that stand in the text itself or in a file. -/
def data? (file? : String → Option String) (inline path : Option String) : Option (List Nat) :=
  match inline, path with
  | some text, _ => Base64.bytes? text.toList
  | none, some path => (file? path).map bytesOf
  | none, none => none

def hasReadableAuthority (file? : String → Option String) (e : Endpoint) : Bool :=
  (e.authority.isNone && e.authorityData.isNone) ||
    (data? file? e.authorityData e.authority).isSome

/-- An empty proxy is none. -/
def hasValidProxy (e : Endpoint) : Bool :=
  match e.proxyUrl with
  | none => true
  | some p => p = "" || Uri.isValid p

def target? (file? : String → Option String) (c : Kubeconfig) : Option Target := do
  let current ← c.current
  let context ← Entry.content? c.contexts current
  let endpoint ← Entry.content? c.clusters context.cluster
  let credentials ← Entry.content? c.users context.user
  let server ← endpoint.server
  if Uri.isValid server && hasReadableAuthority file? endpoint && hasValidProxy endpoint then
    some ⟨endpoint, credentials, context.ns.getD "default"⟩
  else none

end Kubeconfig

namespace Credentials

/-- Whether some bytes stand together among others. -/
def mentions (word : List Nat) : List Nat → Bool
  | [] => word.isEmpty
  | b :: bs => (b :: bs).take word.length == word || mentions word bs

/-- A certificate counts only together with its key; what does not decode is left out. -/
def hasUsableIdentity (file? : String → Option String) (c : Credentials) : Bool :=
  match Kubeconfig.data? file? c.certificateData c.certificate,
      Kubeconfig.data? file? c.keyData c.key with
  | some certificate, some key =>
    mentions (Kubeconfig.bytesOf "-----BEGIN CERTIFICATE-----") certificate &&
      mentions (Kubeconfig.bytesOf "PRIVATE KEY-----") key
  | _, _ => true

/-- A plug-in that hands on a token it is told. -/
def isUsableProvider (p : String × Labels) : Bool :=
  (p.1 = "gcp" || p.1 = "oidc") && p.2.contains "id-token"

/-- Whether a client can be made with the credentials: what is looked at first decides. -/
def isUsable (file? : String → Option String) (c : Credentials) : Bool :=
  hasUsableIdentity file? c &&
    match c.provider with
    | some p => isUsableProvider p
    | none =>
      (c.username.isSome && c.password.isSome) || c.token.isSome ||
        match c.tokenFile with
        | some path => (file? path).isSome
        | none => !c.command

end Credentials

inductive ClientError where
  | unreadable
  | noTarget
  | noClient
  deriving DecidableEq

def ClientError.text : ClientError → String
  | unreadable => "Failed to read kubeconfig file"
  | noTarget => "Failed to create config from kubeconfig"
  | noClient => "Failed to create Kubernetes client"

namespace Target

def ofFile (file? : String → Option String) (path : String) : Except ClientError Target := do
  let text ← ((file? path).map Except.ok).getD (.error .unreadable)
  let config ← ((Kubeconfig.ofText? text).map Except.ok).getD (.error .unreadable)
  let target ← ((config.target? file?).map Except.ok).getD (.error .noTarget)
  if target.credentials.isUsable file? then .ok target else .error .noClient

def failed (message : String) : Report :=
  Report.external.because (.cluster (.connectionFailed message))

/-- The target of a file that is asked for, or else of the file of the environment. -/
def find (file? : String → Option String) (environment path : Option String) : Result Target :=
  match path with
  | some path =>
    match ofFile file? path with
    | .ok t => .ok t
    | .error e => .error (failed (e.text ++ ": " ++ path))
  | none =>
    match environment.map (ofFile file?) with
    | some (.ok t) => .ok t
    | _ => .error (failed ClientError.noClient.text)

end Target

end Cluster

end SessionWatch
