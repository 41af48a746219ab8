import Admission.History
import Admission.Scalar

/-!
# How long the leases of a category were held

The durations of released leases are kept twice: the latest ones, which show the present speed of a
category, and the number and sum of all of them, which show its usual speed. Leases that were lost
are not counted.
-/

set_option autoImplicit false
set_option relaxedAutoImplicit false

namespace Admission

/-- The durations of released leases in milliseconds. -/
structure Durations where
  /-- The latest durations. -/
  recent : History := {}
  /-- The number of all durations. -/
  count : Nat := 0
  /-- The sum of all durations. -/
  total : Nat := 0
deriving DecidableEq

namespace Durations

instance : Inhabited Durations := ⟨{}⟩

/-- Adds a duration. -/
def push (durations : Durations) (duration : Nat) : Durations :=
  { recent := durations.recent.push duration
    count := durations.count + 1
    total := durations.total + duration }

variable {R : Type} [Scalar R]

/-- The mean of the latest durations, zero if there is none. -/
def recentMean (durations : Durations) : R :=
  if durations.recent.items.isEmpty then Scalar.zero
  else Scalar.mean durations.recent.sum durations.recent.length

/-- The mean of all durations, zero if there is none. -/
def totalMean (durations : Durations) : R :=
  if durations.count = 0 then Scalar.zero else Scalar.mean durations.total durations.count

end Durations

end Admission
