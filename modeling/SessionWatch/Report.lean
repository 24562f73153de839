import SessionWatch.Text.Quoted
import SessionWatch.Text.Span

/-!
What can go wrong, as causes by the layer that names them, and the report that carries a
failure outwards. A report lists its frames from the outermost inwards.
-/

namespace SessionWatch

inductive DeliveryError where
  | handlerFailed (event : String)
  deriving DecidableEq

inductive HandlingError where
  | badNodeLabel (labels : Labels)
  | storage
  | session
  deriving DecidableEq

inductive SessionError where
  | keyNotFound (key : String)
  | encode
  | storage
  deriving DecidableEq

inductive StorageError where
  | noBackend
  | connectionFailed (backend : String)
  | commandFailed (backend command : String)
  | partialFailure (failed total : Nat)
  deriving DecidableEq

inductive ObjectError where
  | unreadable (kind message : String)
  | missingField (field : String)
  | driverVersionMissing
  deriving DecidableEq

inductive SettingsError where
  | unread (path : String)
  | unparsed
  | invalid (message : String)
  deriving DecidableEq

inductive WorkerError where
  | failed (worker : String)
  | panicked (worker : String)
  | signal
  deriving DecidableEq

inductive ClusterError where
  | connectionFailed (message : String)
  | watchFailed (resource message : String)
  deriving DecidableEq

inductive ProbeError where
  | server (message : String)
  deriving DecidableEq

inductive Cause where
  | delivery (e : DeliveryError)
  | handling (e : HandlingError)
  | session (e : SessionError)
  | storage (e : StorageError)
  | object (e : ObjectError)
  | settings (e : SettingsError)
  | worker (e : WorkerError)
  | cluster (e : ClusterError)
  | probe (e : ProbeError)
  deriving DecidableEq

namespace Cause

def message : Cause → String
  | .delivery (.handlerFailed event) => "Handler failed for event " ++ event
  | .handling (.badNodeLabel labels) =>
    "Node labels " ++ Quoted.ofLabels labels ++ " cannot be encoded"
  | .handling .storage => "Repository operation failed"
  | .handling .session => "Session operation failed"
  | .session (.keyNotFound key) => "Store key " ++ key ++ " does not exist"
  | .session .encode => "Failed to encode session payload"
  | .session .storage => "Failed to write session task"
  | .storage .noBackend => "No key-value backend is enabled"
  | .storage (.connectionFailed backend) => "Failed to connect to backend " ++ backend
  | .storage (.commandFailed backend command) =>
    "Backend " ++ backend ++ " failed to execute " ++ command
  | .storage (.partialFailure failed total) =>
    Decimal.textOfNat failed ++ " of " ++ Decimal.textOfNat total ++ " backends failed"
  | .object (.unreadable kind message) => "Failed to parse " ++ kind ++ ": " ++ message
  | .object (.missingField field) => "Object has no " ++ field
  | .object .driverVersionMissing => "Driver version is missing"
  | .settings (.unread path) => "Failed to read configuration file " ++ path
  | .settings .unparsed => "Failed to parse configuration"
  | .settings (.invalid message) => "Invalid configuration: " ++ message
  | .worker (.failed name) => "Worker " ++ name ++ " failed"
  | .worker (.panicked name) => "Worker " ++ name ++ " panicked"
  | .worker .signal => "Failed to install signal handler"
  | .cluster (.connectionFailed message) => "Failed to connect to Kubernetes API: " ++ message
  | .cluster (.watchFailed resource message) =>
    "Failed to watch " ++ resource ++ ": " ++ message
  | .probe (.server message) => "Server error: " ++ message

end Cause

/-- What a layer adds to a report about the thing it was working on. -/
inductive Attachment where
  | missingLabel (label : String)
  | agentPool (pool : String)
  | stream (key : String)
  | set (key : String)
  | address (address : String)
  | gaveUpAfter (ms : Nat)
  | failingMode
  deriving DecidableEq

def Attachment.text : Attachment → String
  | .missingLabel label => "missing label " ++ label
  | .agentPool pool => "agent pool: " ++ pool
  | .stream key => "stream: " ++ key
  | .set key => "set: " ++ key
  | .address a => "address: " ++ a
  | .gaveUpAfter ms => "gave up after " ++ Span.text ms
  | .failingMode => "in-memory backend is in failing mode"

inductive Frame where
  | cause (c : Cause)
  | attachment (a : Attachment)
  /-- An error that comes from outside this program. -/
  | external
  deriving DecidableEq

/-- The frames of a failure, the outermost first. -/
structure Report where
  frames : List Frame
  deriving DecidableEq

abbrev Result (α : Type) := Except Report α

namespace Report

def of (c : Cause) : Report := ⟨[.cause c]⟩

/-- A failure that comes from outside this program. -/
def external : Report := ⟨[.external]⟩

def because (r : Report) (c : Cause) : Report := ⟨.cause c :: r.frames⟩

def attach (r : Report) (a : Attachment) : Report := ⟨.attachment a :: r.frames⟩

/-- Two failures as one, in the order given. -/
def extend (r s : Report) : Report := ⟨r.frames ++ s.frames⟩

def causes (r : Report) : List Cause :=
  r.frames.filterMap fun f => match f with
    | .cause c => some c
    | _ => none

def outermost? (r : Report) : Option Cause := r.causes.head?

@[simp] theorem frames_of (c : Cause) : (of c).frames = [.cause c] := rfl

@[simp] theorem frames_because (r : Report) (c : Cause) :
    (r.because c).frames = .cause c :: r.frames := rfl

@[simp] theorem frames_attach (r : Report) (a : Attachment) :
    (r.attach a).frames = .attachment a :: r.frames := rfl

@[simp] theorem frames_extend (r s : Report) : (r.extend s).frames = r.frames ++ s.frames := rfl

@[simp] theorem outermost?_because (r : Report) (c : Cause) :
    (r.because c).outermost? = some c := rfl

end Report

/-- A failed result seen by the layer around it. -/
def Result.because {α : Type} (r : Result α) (c : Cause) : Result α := r.mapError (·.because c)

def Result.attach {α : Type} (r : Result α) (a : Attachment) : Result α := r.mapError (·.attach a)

end SessionWatch
