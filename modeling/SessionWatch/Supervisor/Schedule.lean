import SessionWatch.Supervisor

/-!
Workers on a timetable under a supervisor. A worker ends when its time has come, or as soon as
it is cancelled if it heeds that. Workers whose time comes at once are joined in the order of
their registration, before anything that their endings cause.
-/

namespace SessionWatch

structure TimedWorker where
  name : String
  /-- Milliseconds after which it ends by itself. -/
  after : Option Nat
  ending : Ending
  /-- How it ends when it is cancelled, if it heeds that. -/
  onCancel : Option Ending

/-- An end as it was seen: when, whose, and whether it was forced. -/
structure Sighting where
  time : Nat
  worker : String
  forced : Bool
  deriving DecidableEq

structure Schedule where
  workers : List TimedWorker
  supervisor : Supervisor
  /-- Those still running in the order in which a cancellation comes to them, the last one
  first. The last one fills the gap that an ended one leaves. -/
  holders : List Nat
  sightings : List Sighting := []

namespace Schedule

def start (workers : List TimedWorker) : Schedule :=
  { workers
    supervisor := .start (workers.map (·.name))
    holders := List.range workers.length }

/-- Remove an element, the last one taking its place. -/
def removeFilling (i : Nat) (is : List Nat) : List Nat :=
  match is.getLast? with
  | none => []
  | some l => (is.dropLast.map fun j => if j = i then l else j)

def endOne (s : Schedule) (time : Nat) (i : Nat) (e : Ending) (forced : Bool) : Schedule :=
  { s with
      supervisor := s.supervisor.endOne i e
      holders := removeFilling i s.holders
      sightings := s.sightings ++ [⟨time, s.supervisor.nameOf i, forced⟩] }

def due (s : Schedule) (time : Nat) : List (Nat × Ending) :=
  s.supervisor.running.filterMap fun i =>
    match s.workers[i]? with
    | some w => if w.after = some time then some (i, w.ending) else none
    | none => none

/-- Who of some workers heeds a cancellation. -/
def heeding (s : Schedule) (is : List Nat) : List (Nat × Ending) :=
  is.filterMap fun i => (s.workers[i]?.bind (·.onCancel)).map fun e => (i, e)

def endAll (s : Schedule) (time : Nat) (forced : Bool) (ends : List (Nat × Ending)) : Schedule :=
  ends.foldl (fun s e => s.endOne time e.1 e.2 forced) s

/-- The cancellation, if there is one, comes to those who heed it. -/
def spread (s : Schedule) (time : Nat) : Schedule :=
  if s.supervisor.stopped then s.endAll time true (s.heeding s.holders.reverse) else s

/-- What happens at a time, which may be that of a cancellation from outside. -/
def tick (cancelAt : Option Nat) (s : Schedule) (time : Nat) : Schedule :=
  let s := s.endAll time false (s.due time)
  let s := if cancelAt = some time then
      { s with supervisor := s.supervisor.step .cancelled }
    else s
  s.spread time

/-- A cancellation before the start comes to the workers as they start, one after the other. -/
def begin (cancelAt : Option Nat) (s : Schedule) : Schedule :=
  if cancelAt = some 0 then
    let s := { s with supervisor := s.supervisor.step .cancelled }
    s.endAll 0 true (s.heeding s.supervisor.running)
  else s

def times (cancelAt : Option Nat) (workers : List TimedWorker) : List Nat :=
  (cancelAt.toList ++ workers.filterMap (·.after)).mergeSort.eraseDups

/-- All that happens, a cancellation from outside included, until nothing happens any more. -/
def run (cancelAt : Option Nat) (workers : List TimedWorker) : Schedule :=
  let s := (times cancelAt workers).foldl (tick cancelAt) ((start workers).begin cancelAt)
  { s with supervisor := s.supervisor.settle }

end Schedule

end SessionWatch
