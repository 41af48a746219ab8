/-!
# Sets of code points

A property of characters is a set of code points. Such sets come in long runs, so one is given as
its runs: inclusive ranges in increasing order.
-/

set_option autoImplicit false
set_option relaxedAutoImplicit false

namespace Admission.Text

/-- A set of code points: inclusive ranges in increasing order. -/
structure CodePoints where
  ranges : Array (Nat × Nat)

/-- Whether a character is in the set. -/
def CodePoints.contains (points : CodePoints) (c : Char) : Bool :=
  points.ranges.any fun range ↦ range.1 ≤ c.toNat && c.toNat ≤ range.2

end Admission.Text
