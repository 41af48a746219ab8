/-!
# The numbers that weights are computed in

Weights, shares and averages are computed in one number type, which the rest of the library leaves
open. `Scalar` lists the operations they need: the four operations of arithmetic, the order,
conversion from counts, and the three roundings that turn a share into a limit. Decimal constants
come from `OfScientific`.

There are two readings. In `Float` every operation rounds, so the order in which a definition
combines its terms is part of what it means. In `Rat` nothing rounds, and the definitions say what
the rounded ones approximate.
-/

set_option autoImplicit false
set_option relaxedAutoImplicit false

namespace Admission

/-- Arithmetic of weights, shares and averages. -/
class Scalar (R : Type) extends Add R, Sub R, Mul R, Div R, LT R, LE R, OfScientific R where
  decidableLT : DecidableLT R
  decidableLE : DecidableLE R
  /-- The number nearest to a count. -/
  ofNat : Nat → R
  /-- The nearest whole number, a half going away from zero. -/
  round : R → R
  /-- Whether the number is neither infinite nor undefined. -/
  isFinite : R → Bool
  /-- The whole part of a number that is not negative. -/
  truncate : R → Nat

attribute [reducible, instance] Scalar.decidableLT Scalar.decidableLE

namespace Scalar

variable {R : Type} [Scalar R]

/-- The number zero. -/
def zero : R := ofNat 0

/-- The value moved into the interval from `low` to `high`. An undefined value stays as it is,
because it compares with neither end. -/
def clamp (value low high : R) : R :=
  let raised := if value < low then low else value
  if high < raised then high else raised

/-- The mean of `count` terms of the given sum. -/
def mean (sum count : Nat) : R := ofNat sum / ofNat count

instance : Scalar Float where
  decidableLT := inferInstance
  decidableLE := inferInstance
  ofNat := Float.ofNat
  round := Float.round
  isFinite := Float.isFinite
  truncate value := value.toUInt64.toNat

instance : Scalar Rat where
  decidableLT := inferInstance
  decidableLE := inferInstance
  ofNat count := (count : Rat)
  round value :=
    if value < 0 then -((-value + 1 / 2).floor : Rat) else ((value + 1 / 2).floor : Rat)
  isFinite _ := true
  truncate value := value.floor.toNat

end Scalar

end Admission
