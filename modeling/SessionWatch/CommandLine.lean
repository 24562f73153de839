import SessionWatch.Settings
import SessionWatch.Text.Decimal

/-!
Command lines: the arguments of a run, of which each may also come from an environment
variable. What is wrong with a command line is told by its first fault.
-/

namespace SessionWatch.CommandLine

/-- Why no run comes of a command line; being asked for help or the version is one reason. -/
inductive Refusal where
  | help
  | version
  | helpForNothing
  | unknownCommand
  | unknownArgument
  | invalidValue
  | malformedValue
  | unneededValue
  | repeatedArgument
  deriving DecidableEq

inductive Argument where
  | config | port | kubeconfig | podNamespace | redisMock
  deriving DecidableEq

namespace Argument

/-- All arguments in the order in which their variables are looked at. -/
def all : List Argument := [config, port, kubeconfig, podNamespace, redisMock]

def flag : Argument → String
  | config => "config"
  | port => "port"
  | kubeconfig => "kubeconfig"
  | podNamespace => "pod-namespace"
  | redisMock => "redis-mock"

/-- The environment variable that stands in for the flag. -/
def envName : Argument → String
  | config => "CONFIG_PATH"
  | port => "SESSION_MONITOR_PORT"
  | kubeconfig => "KUBECONFIG"
  | podNamespace => "POD_NAMESPACE"
  | redisMock => "REDIS_MOCK"

def ofFlag? (name : String) : Option Argument := all.find? fun a => a.flag == name

/-- Put a value into the arguments of a run. A path must not be empty. -/
def assign (a : Argument) (value : String) (r : RunArguments) : Except Refusal RunArguments :=
  match a with
  | config => if value = "" then .error .invalidValue else .ok { r with config := some value }
  | kubeconfig =>
    if value = "" then .error .invalidValue else .ok { r with kubeconfig := some value }
  | podNamespace => .ok { r with podNamespace := some value }
  | port =>
    match Decimal.toInt64? value.toList with
    | some i =>
      if 0 ≤ i.toInt ∧ i.toInt < 65536 then .ok { r with port := some (.ofNat i.toInt.toNat) }
      else .error .malformedValue
    | none => .error .malformedValue
  | redisMock =>
    match value with
    | "true" => .ok { r with redisMock := some true }
    | "false" => .ok { r with redisMock := some false }
    | _ => .error .invalidValue

end Argument

inductive Word where
  /-- What follows are values only. -/
  | escape
  | long (name : String) (value : Option String)
  | short (letters : List Char)
  | value (text : String)

def Word.ofString (s : String) : Word :=
  match s.toList with
  | ['-', '-'] => .escape
  | '-' :: '-' :: cs =>
    match cs.dropWhile (· ≠ '=') with
    | [] => .long (String.ofList cs) none
    | _ :: v => .long (String.ofList (cs.takeWhile (· ≠ '='))) (some (String.ofList v))
  | '-' :: c :: cs => .short (c :: cs)
  | _ => .value s

structure Reading where
  given : List Argument := []
  result : RunArguments := {}
  /-- A flag whose value stands in a word of its own, and that value once it is read. -/
  pending : Option (Argument × Option String) := none
  escaped : Bool := false

namespace Reading

def assign (r : Reading) (a : Argument) (value : String) : Except Refusal Reading :=
  if r.given.contains a then .error .repeatedArgument
  else do
    let result ← a.assign value r.result
    pure { r with given := a :: r.given, result }

def settle (r : Reading) : Except Refusal Reading :=
  match r.pending with
  | none => .ok r
  | some (_, none) => .error .invalidValue
  | some (a, some value) => { r with pending := none }.assign a value

def word (r : Reading) : Word → Except Refusal Reading
  | .escape => .ok { r with escaped := true }
  | .long "help" none => do
    let _ ← r.settle
    .error .help
  | .long "help" (some _) => do
    let _ ← r.settle
    .error .unneededValue
  | .long name value =>
    match Argument.ofFlag? name with
    | none => .error .unknownArgument
    | some a => do
      let r ← r.settle
      match value with
      | some value => r.assign a value
      | none => pure { r with pending := some (a, none) }
  | .short letters =>
    if letters.head? = some 'h' then do
      let _ ← r.settle
      .error .help
    else .error .unknownArgument
  | .value text =>
    match r.pending with
    | some (a, none) => .ok { r with pending := some (a, some text) }
    | _ => .error .unknownArgument

def words (r : Reading) : List String → Except Refusal Reading
  | [] => r.settle
  | s :: ss => do
    let r ← if r.escaped then .error .unknownArgument else r.word (.ofString s)
    r.words ss

/-- Let variables stand in for the flags that are not given. -/
def fill (environment : Table String) (r : Reading) : List Argument → Except Refusal Reading
  | [] => .ok r
  | a :: as => do
    let r ← match environment.get? a.envName with
      | some value => if r.given.contains a then pure r else r.assign a value
      | none => pure r
    r.fill environment as

end Reading

def runArguments (environment : Table String) (words : List String) :
    Except Refusal RunArguments := do
  let r ← Reading.words {} words
  let r ← r.fill environment Argument.all
  pure r.result

def commands : List String := ["run", "help"]

/-- Help on commands: one may be named. -/
def helpOn : List String → Refusal
  | [] => .help
  | [c] => if commands.contains c then .help else .unknownCommand
  | _ => .unknownCommand

def parse (environment : Table String) : List String → Except Refusal RunArguments
  | [] => .error .helpForNothing
  | s :: ss =>
    match Word.ofString s with
    | .value "run" => runArguments environment ss
    | .value "help" => .error (helpOn ss)
    | .value _ => .error .unknownCommand
    | .long "help" none => .error .help
    | .long "version" none => .error .version
    | .long "help" (some _) | .long "version" (some _) => .error .unneededValue
    | .long _ _ => .error .unknownArgument
    | .short letters =>
      if letters.head? = some 'h' then .error .help
      else if letters.head? = some 'V' then .error .version
      else .error .unknownArgument
    | .escape =>
      match ss with
      | [] => .error .helpForNothing
      | c :: _ => if commands.contains c then .error .unknownArgument else .error .unknownCommand

end SessionWatch.CommandLine
