import SessionWatch.Storage.Redis.Address
import SessionWatch.Storage.Redis.Connection

/-!
Connecting to a redis server. An attempt that is refused is made again after a while, each time
after twice as long, and all attempts together are bounded in time.
-/

namespace SessionWatch.Storage.Redis

/-- What is at the other end of an address. -/
inductive Peer where
  /-- Nothing that takes connections. -/
  | absent
  /-- Something that takes connections and never answers. -/
  | silent
  /-- A server with these replies; behind the last one it answers with errors. -/
  | answering (replies : List Reply)

structure DialOptions where
  /-- Milliseconds for all attempts together. -/
  timeout : Nat
  /-- How often an attempt is made again. -/
  retries : Nat
  deriving DecidableEq

namespace DialOptions

/-- From so many retries on the last wait alone is longer than any timeout. -/
def manyRetries : Nat := 80

/-- Milliseconds waited between the attempts if all fail: 200, 400, 800 and so on. -/
def waiting (o : DialOptions) : Nat := 100 * ((2 <<< min o.retries manyRetries) - 2)

end DialOptions

def dialFailure (name : String) (a : Attachment) : Report :=
  (Report.external.because (.storage (.connectionFailed name))).attach a

/-- A connection to a server under a name, if one comes about. -/
def dial (name address : String) (o : DialOptions) (peer : Peer) : Result Connection :=
  match Address.parse? address with
  | none => .error (dialFailure name (.address address))
  | some a =>
    match peer with
    | .answering replies => .ok ⟨name, replies, a.greeting⟩
    | .silent => .error (dialFailure name (.gaveUpAfter o.timeout))
    | .absent =>
      .error (dialFailure name
        (if o.timeout ≤ o.waiting then .gaveUpAfter o.timeout else .address address))

end SessionWatch.Storage.Redis
