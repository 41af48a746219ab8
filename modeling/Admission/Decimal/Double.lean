import Admission.Decimal.Shortest

/-!
# The text of a double

A double is written with the fewest digits that read back: positionally from 0.00001 up to, but not
including, 10 ^ 16, and with an exponent beyond. A double that is no number is written as `null`.
-/

set_option autoImplicit false
set_option relaxedAutoImplicit false

namespace Admission.Decimal

/-- The parts of a double: its sign, its fraction `m · 2 ^ q`, and whether the gap below it is half
as wide as the gap above. Infinite and undefined doubles have none. -/
def parts? (value : Float) : Option (Bool × Nat × Int × Bool) :=
  let bits := value.toBits.toNat
  let negative := 0x8000000000000000 ≤ bits
  let exponent : Nat := bits / 0x10000000000000 % 0x800
  let fraction : Nat := bits % 0x10000000000000
  if exponent = 0x7FF then none
  else if exponent = 0 then some (negative, fraction, -1074, false)
  else some (negative, 0x10000000000000 + fraction, (exponent : Int) - 1075,
    fraction = 0 && 1 < exponent)

/-- Where the texts of doubles change to an exponent. -/
def doubleLayout : Layout := ⟨16, -5⟩

/-- The text of a double. -/
def ofFloat (value : Float) : String :=
  match parts? value with
  | none => "null"
  | some (negative, mantissa, exponent, narrowBelow) =>
    let text :=
      if mantissa = 0 then "0.0"
      else doubleLayout.write (shortest mantissa exponent narrowBelow)
    if negative then "-" ++ text else text

end Admission.Decimal
