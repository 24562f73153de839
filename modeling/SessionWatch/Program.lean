import SessionWatch.Application
import SessionWatch.CommandLine
import SessionWatch.LogTarget

/-!
From a command line to the way the process ends.
-/

namespace SessionWatch.Program

def logVariable : String := "SESSION_MONITOR_LOG_PATH"

/-- How a process ends: its exit code, and what it says of a failure. -/
structure Exit where
  code : Nat
  message : Option String := none
  deriving DecidableEq

/-- Being asked for help or for the version is no failure. -/
def Exit.ofRefusal : CommandLine.Refusal → Exit
  | .help | .version => ⟨0, none⟩
  | _ => ⟨2, none⟩

def Exit.ofFailure (message : String) : Exit := ⟨1, some message⟩

/-- The settings of a run, after the log is set up. -/
def prepare (environment : Table String) (file? : String → Option String)
    (arguments : RunArguments) : Except Exit Settings :=
  match LogTarget.ofPath? (environment.get? logVariable) with
  | none => .error (.ofFailure "failed to initialize logging")
  | some _ =>
    match Settings.load file? arguments with
    | .error _ => .error (.ofFailure "Failed to load configuration")
    | .ok s => .ok s

def start (s : Settings) (around : Surroundings) (clock : Clock) : Exit :=
  match Application.build s around clock with
  | (_, .error f) => .ofFailure f.text
  | (w, .ok a) =>
    match a.run around w [] with
    | (_, .error f) => .ofFailure f.text
    | (_, .ok ()) => ⟨0, none⟩

def run (environment : Table String) (words : List String) (around : Surroundings)
    (clock : Clock) : Exit :=
  match CommandLine.parse environment words with
  | .error r => .ofRefusal r
  | .ok arguments =>
    match prepare environment around.file? arguments with
    | .error e => e
    | .ok s => start s around clock

def settingsFiles (environment : Table String) (words : List String) : List String :=
  match CommandLine.parse environment words with
  | .ok arguments => arguments.config.toList
  | .error _ => []

def clientFiles (environment : Table String) (words : List String)
    (file? : String → Option String) : List String :=
  match CommandLine.parse environment words with
  | .error _ => []
  | .ok arguments =>
    match Settings.load file? arguments with
    | .ok s => s.kubeconfig.toList
    | .error _ => []

end SessionWatch.Program
