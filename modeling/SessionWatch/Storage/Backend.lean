import SessionWatch.Storage.Memory
import SessionWatch.Storage.Redis.Connection

/-!
A backend is a store in memory or a redis server.
-/

namespace SessionWatch.Storage

inductive Backend where
  | memory (m : Memory)
  | redis (c : Redis.Connection)

namespace Backend

def name : Backend → String
  | .memory m => m.name
  | .redis c => c.name

/-- One request and its answer; without an answer the process died on the way. -/
def exchange (b : Backend) (clock : Clock) (r : Request) : Backend × Option (Result r.Answer) :=
  match b with
  | .memory m =>
    let x := m.exchange clock r
    (.memory x.1, x.2)
  | .redis c =>
    let x := c.exchange r
    (.redis x.1, some x.2)

def memory? : Backend → Option Memory
  | .memory m => some m
  | .redis _ => none

end Backend

end SessionWatch.Storage
