import SessionWatch.Storage.Redis.Reply

/-!
A redis backend at one end of a connection: requests as argument lists, answers from the
replies that the other end gives in turn.
-/

namespace SessionWatch.Storage.Redis

def setCommand (r : Record) : List String :=
  ["SET", r.key, r.payload] ++
    match r.expiry with
    | some ms => ["PX", Decimal.textOfNat (ms % UInt64.size)]
    | none => []

/-- The argument lists that carry a request; records travel as one transaction. -/
def commands : Request → List (List String)
  | .time => [["TIME"]]
  | .ping => [["PING"]]
  | .append stream id fields => [["XADD", stream, id] ++ fields.flatMap fun f => [f.1, f.2]]
  | .index _ [] => []
  | .index set (r :: rs) =>
    ["MULTI"] :: ((r :: rs).map setCommand ++
      [["SADD", set] ++ (r :: rs).map (·.key), ["EXEC"]])

def refusal (name : String) (r : Request) : Report :=
  let report := Report.external.because (.storage (.commandFailed name r.operation.label))
  match r with
  | .append stream _ _ => report.attach (.stream stream)
  | .index set _ => report.attach (.set set)
  | _ => report

structure Connection where
  name : String
  /-- The replies still to come; behind the last one the connection is broken. -/
  pending : List Reply
  sent : List (List String) := []

namespace Connection

def receive (c : Connection) (r : Request) : Connection × Result r.Answer :=
  let c := { c with sent := c.sent ++ commands r }
  match c.pending with
  | [] => (c, .error (refusal c.name r))
  | reply :: rest =>
    ({ c with pending := rest },
      match reply.read? r with
      | some a => .ok a
      | none => .error (refusal c.name r))

/-- No records, no transaction. -/
def exchange (c : Connection) : (r : Request) → Connection × Result r.Answer
  | .index _ [] => (c, .ok 0)
  | r => c.receive r

end Connection

end SessionWatch.Storage.Redis
