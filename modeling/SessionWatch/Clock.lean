import SessionWatch.Text.Decimal

/-!
The two clocks: the wall clock tells the date and may be set to any value, the monotonic
clock only measures how long ago something was.
-/

namespace SessionWatch

/-- Wall time in milliseconds since the epoch, monotonic time in milliseconds. -/
structure Clock where
  wall : Int64
  monotonic : Nat
  deriving DecidableEq

namespace Clock

/-- Whole seconds since the epoch, rounded down. -/
def seconds (c : Clock) : Int64 := .ofInt (c.wall.toInt / 1000)

/-- Milliseconds since the epoch, none before it. -/
def millis (c : Clock) : UInt64 := .ofNat c.wall.toInt.toNat

/-- The last second that the monotonic clock can show: the largest signed word of 64 bits. -/
def lastSecond : Nat := 9223372036854775807

/-- The moment so many milliseconds from now, if the monotonic clock can show it. -/
def deadline? (c : Clock) (ms : Nat) : Option Nat :=
  if (c.monotonic + ms) / 1000 ≤ lastSecond then some (c.monotonic + ms) else none

def advance (c : Clock) (ms : Nat) : Clock :=
  ⟨.ofInt (c.wall.toInt + ms), c.monotonic + ms⟩

@[simp] theorem monotonic_advance (c : Clock) (ms : Nat) :
    (c.advance ms).monotonic = c.monotonic + ms := rfl

end Clock

end SessionWatch
