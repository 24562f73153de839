import SessionWatch.Clock
import SessionWatch.Storage.Request

/-!
The backend that lives in the process itself: strings that may expire, sets, and streams
whose automatic ids never repeat. It keeps a log of the commands that it carried out.
-/

namespace SessionWatch.Storage

structure StreamId where
  millis : UInt64
  seq : UInt64
  deriving DecidableEq

namespace StreamId

def text (i : StreamId) : String :=
  Decimal.textOfNat i.millis.toNat ++ "-" ++ Decimal.textOfNat i.seq.toNat

/-- The first id of a later millisecond, or else the next one of the same. -/
def next (last : StreamId) (now : UInt64) : StreamId :=
  if last.millis < now then ⟨now, 0⟩ else ⟨last.millis, last.seq + 1⟩

end StreamId

structure Entry where
  id : String
  fields : Fields
  deriving DecidableEq

/-- The value of the first field of that name. -/
def Entry.field? (e : Entry) (name : String) : Option String :=
  (e.fields.find? fun f => f.1 == name).map (·.2)

/-- A command as it was carried out. -/
inductive Command where
  | time
  | ping
  | append (stream : String) (fields : Fields)
  | set (key value : String) (expiry : Option Nat)
  | index (set : String) (members : List String)
  deriving DecidableEq

/-- A string and the moment from which it is gone. -/
structure Stored where
  value : String
  deadline : Option Nat
  deriving DecidableEq

structure Memory where
  name : String
  failing : List Operation := []
  strings : Table Stored := ∅
  sets : Table KeySet := ∅
  streams : Table (List Entry) := ∅
  lastId : StreamId := ⟨0, 0⟩
  log : List Command := []

namespace Memory

def get? (m : Memory) (c : Clock) (key : String) : Option String :=
  match m.strings.get? key with
  | some s =>
    match s.deadline with
    | some d => if c.monotonic < d then some s.value else none
    | none => some s.value
  | none => none

def members (m : Memory) (set : String) : KeySet := (m.sets.get? set).getD ∅

def stream (m : Memory) (key : String) : List Entry := (m.streams.get? key).getD []

def record (m : Memory) (c : Command) : Memory := { m with log := m.log ++ [c] }

/-- Add an entry at the end of a stream under the id given, or under the next automatic one. -/
def append (m : Memory) (now : UInt64) (key id : String) (fields : Fields) : Memory × String :=
  let last := if id = automaticId then m.lastId.next now else m.lastId
  let name := if id = automaticId then last.text else id
  let m := m.record (.append key fields)
  ({ m with
      lastId := last
      streams := m.streams.insert key (m.stream key ++ [⟨name, fields⟩]) }, name)

/-- Write one record, unless its moment of expiry is out of the clock's reach. -/
def write? (m : Memory) (c : Clock) (r : Record) : Option Memory :=
  let put (deadline : Option Nat) : Memory :=
    { m.record (.set r.key r.payload r.expiry) with
        strings := m.strings.insert r.key ⟨r.payload, deadline⟩ }
  match r.expiry with
  | none => some (put none)
  | some ms => (c.deadline? ms).map fun d => put (some d)

/-- Write records in order; what was written before one that cannot be written stays. -/
def writeAll (m : Memory) (c : Clock) : List Record → Memory × Bool
  | [] => (m, true)
  | r :: rs =>
    match m.write? c r with
    | some m => m.writeAll c rs
    | none => (m, false)

/-- The set with the keys added, and how many of them it did not have. -/
def addKeys : KeySet → List String → KeySet × Nat
  | s, [] => (s, 0)
  | s, k :: ks =>
    let r := addKeys (s.insert k ()) ks
    (r.1, r.2 + if s.contains k then 0 else 1)

def addMembers (m : Memory) (set : String) (keys : List String) : Memory × UInt64 :=
  let m := m.record (.index set keys)
  let r := addKeys (m.members set) keys
  ({ m with sets := m.sets.insert set r.1 }, .ofNat r.2)

/-- Carry a request out. Without an answer the process died on the way. -/
def serve (m : Memory) (c : Clock) : (r : Request) → Memory × Option (Result r.Answer)
  | .time => (m.record .time, some (.ok c.seconds))
  | .ping => (m.record .ping, some (.ok "PONG"))
  | .append key id fields =>
    let r := m.append c.millis key id fields
    (r.1, some (.ok r.2))
  | .index _ [] => (m, some (.ok 0))
  | .index set (r :: rs) =>
    match m.writeAll c (r :: rs) with
    | (m, false) => (m, none)
    | (m, true) =>
      let a := m.addMembers set ((r :: rs).map (·.key))
      (a.1, some (.ok a.2))

def fails (m : Memory) (r : Request) : Bool := m.failing.contains r.operation

/-- A request of a kind that fails is refused and leaves no trace. -/
def exchange (m : Memory) (c : Clock) (r : Request) : Memory × Option (Result r.Answer) :=
  if m.fails r then (m, some (.error ((failure m.name r).attach .failingMode))) else m.serve c r

theorem exchange_of_fails {m : Memory} {r : Request} (c : Clock) (h : m.fails r = true) :
    m.exchange c r = (m, some (.error ((failure m.name r).attach .failingMode))) :=
  if_pos h

theorem exchange_of_not_fails {m : Memory} {r : Request} (c : Clock) (h : m.fails r = false) :
    m.exchange c r = m.serve c r := by
  simp [exchange, h]

end Memory

end SessionWatch.Storage
