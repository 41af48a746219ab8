/-!
# Clock readings and lengths of time

A clock reading is a number of milliseconds since the clock's epoch. Readings are held in a word of
64 bits: moving a clock forward wraps around at `Clock.period`, and a length of time that does not
fit counts as the longest that does. Clocks may also be set back, so the time between two readings
is a difference that stops at zero, the subtraction of natural numbers.
-/

set_option autoImplicit false
set_option relaxedAutoImplicit false

namespace Admission

/-- A length of time. -/
structure Duration where
  seconds : Nat
  /-- Nanoseconds beyond the whole seconds. -/
  nanos : Nat
  nanos_lt : nanos < 1000000000 := by decide
deriving DecidableEq

namespace Duration

/-- No time at all. -/
def zero : Duration := ⟨0, 0, by decide⟩

instance : Inhabited Duration := ⟨zero⟩

/-- The nanoseconds in a second. -/
def nanosPerSecond : Nat := 1000000000

/-- The length of a number of nanoseconds. -/
def ofNanos (nanos : Nat) : Duration :=
  ⟨nanos / nanosPerSecond, nanos % nanosPerSecond, Nat.mod_lt _ (by decide)⟩

/-- The length of a number of seconds and a number of nanoseconds. -/
def ofParts (seconds nanos : Nat) : Duration := ofNanos (seconds * nanosPerSecond + nanos)

/-- The length of a number of milliseconds. -/
def ofMillis (millis : Nat) : Duration := ofNanos (millis * 1000000)

/-- The whole length in nanoseconds. -/
def toNanos (duration : Duration) : Nat := duration.seconds * nanosPerSecond + duration.nanos

theorem toNanos_ofNanos (nanos : Nat) : (ofNanos nanos).toNanos = nanos :=
  Nat.div_add_mod' nanos nanosPerSecond

theorem ofNanos_toNanos (duration : Duration) : ofNanos duration.toNanos = duration := by
  obtain ⟨seconds, nanos, hlt⟩ := duration
  simp only [ofNanos, toNanos, nanosPerSecond, mk.injEq]
  omega

/-- The number of whole milliseconds. -/
def wholeMillis (duration : Duration) : Nat := duration.toNanos / 1000000

/-- The digits of a fraction of the given number of places, up to the last one that is not zero. -/
def fractionDigits (places fraction : Nat) : List Char :=
  let digits := Nat.toDigits 10 fraction
  let padded := List.replicate (places - digits.length) '0' ++ digits
  (padded.reverse.dropWhile (· = '0')).reverse

/-- A whole part and a fraction of the given number of places, before a unit. -/
def decimalText (whole places fraction : Nat) (unit : String) : String :=
  if fraction = 0 then toString whole ++ unit
  else toString whole ++ "." ++ String.ofList (fractionDigits places fraction) ++ unit

/-- The length in the largest unit that it fills, with as many decimals as it has. -/
def text (duration : Duration) : String :=
  if 0 < duration.seconds then decimalText duration.seconds 9 duration.nanos "s"
  else if 1000000 ≤ duration.nanos then
    decimalText (duration.nanos / 1000000) 6 (duration.nanos % 1000000) "ms"
  else if 1000 ≤ duration.nanos then
    decimalText (duration.nanos / 1000) 3 (duration.nanos % 1000) "µs"
  else decimalText duration.nanos 0 0 "ns"

end Duration

/-- A clock that moves only when it is told to. -/
structure Clock where
  /-- The present reading in milliseconds. -/
  now : Nat
deriving DecidableEq, Inhabited

namespace Clock

/-- Readings repeat after this many milliseconds. -/
def period : Nat := 0x10000000000000000

/-- Moves the clock forward by milliseconds. -/
def advance (clock : Clock) (millis : Nat) : Clock := ⟨(clock.now + millis) % period⟩

/-- Moves the clock forward by a length of time, parts of a millisecond being lost. -/
def advanceBy (clock : Clock) (duration : Duration) : Clock :=
  clock.advance (min duration.wholeMillis (period - 1))

/-- Sets the clock to a reading. -/
def set (_ : Clock) (reading : Nat) : Clock := ⟨reading⟩

theorem now_advance_lt (clock : Clock) (millis : Nat) : (clock.advance millis).now < period :=
  Nat.mod_lt _ (by decide)

end Clock

end Admission
