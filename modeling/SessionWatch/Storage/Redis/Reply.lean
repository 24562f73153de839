import SessionWatch.Storage.Request

/-!
Replies of a redis server and what a client makes of them.
-/

namespace SessionWatch.Storage.Redis

inductive Reply where
  | okay
  | nil
  | int (i : Int64)
  | bulk (text : String)
  | simple (text : String)
  | array (items : List Reply)
  | error (text : String)
  deriving Inhabited

namespace Reply

/-- A signed word, as such or in decimal. -/
def toInt64? : Reply → Option Int64
  | .int i => some i
  | .bulk s => Decimal.toInt64? s.toList
  | .simple s => Decimal.toInt64? s.toList
  | _ => none

/-- An unsigned word: a signed one keeps its bits, a text is read in decimal. -/
def toUInt64? : Reply → Option UInt64
  | .int i => some i.toUInt64
  | .bulk s => (Decimal.below? UInt64.size s.toList).map .ofNat
  | .simple s => (Decimal.below? UInt64.size s.toList).map .ofNat
  | _ => none

def toText? : Reply → Option String
  | .okay => some "OK"
  | .int i => some (Decimal.textOfInt i.toInt)
  | .bulk s => some s
  | .simple s => some s
  | _ => none

/-- The seconds of a pair of seconds and microseconds. -/
def seconds? : Reply → Option Int64
  | .array [s, us] =>
    match s.toInt64?, us.toInt64? with
    | some s, some _ => some s
    | _, _ => none
  | _ => none

/-- The one reply left of a transaction when those to its first commands are dropped. -/
def lastOf? (ignored : Nat) : Reply → Option Reply
  | .array items =>
    match items.drop ignored with
    | [r] => some r
    | _ => none
  | _ => none

def read? (reply : Reply) : (r : Request) → Option r.Answer
  | .time => reply.seconds?
  | .ping => reply.toText?
  | .append .. => reply.toText?
  | .index _ records => (reply.lastOf? records.length).bind toUInt64?

end Reply

end SessionWatch.Storage.Redis
