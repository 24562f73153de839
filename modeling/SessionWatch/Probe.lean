import SessionWatch.Report
import SessionWatch.Text.Json

/-!
The answers to liveness and readiness probes.
-/

namespace SessionWatch.Probe

structure Answer where
  status : Nat
  contentType : String
  body : String
  deriving DecidableEq

def livenessPath : String := "/livenessProbe"

def readinessPath : String := "/readinessProbe"

def json (status : Nat) (word : String) : Answer :=
  ⟨status, "application/json; charset=utf-8", (Json.obj [("status", .str word)]).render⟩

def text (status : Nat) (body : String) : Answer := ⟨status, "text/plain; charset=utf-8", body⟩

def page? (ready : Bool) (path : String) : Option Answer :=
  if path = livenessPath then some (json 200 "alive")
  else if path = readinessPath then
    some (if ready then json 200 "ready" else json 503 "starting")
  else none

def pathOf (target : String) : String :=
  String.ofList (target.toList.takeWhile fun c => c ≠ '?' && c ≠ '#')

/-- A probe only asks; asked for the head alone, the body stays empty. -/
def respond (ready : Bool) (method target : String) : Answer :=
  match page? ready (pathOf target) with
  | none => text 404 "not found"
  | some a =>
    if method = "GET" then a
    else if method = "HEAD" then { a with body := "" }
    else text 405 "method not allowed"

/-- A server on a port that may be taken, run until it is told to stop. -/
def serve (portTaken : Bool) : Result Unit :=
  if portTaken then
    .error (.of (.probe (.server "Server failed: Address already in use (os error 98)")))
  else .ok ()

end SessionWatch.Probe
