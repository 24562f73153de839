import SessionWatch.Report

/-!
What a key-value backend can be asked, and the kind of answer each question has.
-/

namespace SessionWatch

namespace Storage

/-- A value to be written under its key and indexed in a set. -/
structure Record where
  key : String
  payload : String
  /-- Milliseconds until it expires. Nothing keeps it from being zero, but `expiresAfter` does not
  make it so. -/
  expiry : Option Nat := none
  deriving DecidableEq

/-- Zero keeps a record forever. -/
def Record.expiresAfter (r : Record) (ms : Nat) : Record :=
  { r with expiry := if ms = 0 then none else some ms }

abbrev Fields := List (String × String)

inductive Operation where
  | time | ping | append | index
  deriving DecidableEq

def Operation.label : Operation → String
  | .time => "TIME"
  | .ping => "PING"
  | .append => "XADD"
  | .index => "MULTI SET SADD"

inductive Request where
  | time
  | ping
  | append (stream id : String) (fields : Fields)
  | index (set : String) (records : List Record)
  deriving DecidableEq

def Request.operation : Request → Operation
  | .time => .time
  | .ping => .ping
  | .append .. => .append
  | .index .. => .index

/-- Seconds, a greeting, the id of the new entry, or how many keys the set did not have. -/
abbrev Request.Answer : Request → Type
  | .time => Int64
  | .ping => String
  | .append .. => String
  | .index .. => UInt64

/-- The id that leaves the choice to the backend. -/
def automaticId : String := "*"

def failure (backend : String) (r : Request) : Report :=
  .of (.storage (.commandFailed backend r.operation.label))

end Storage

end SessionWatch
