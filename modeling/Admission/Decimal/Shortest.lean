/-!
# The shortest decimal that reads back

A binary fraction `m · 2 ^ q` is read back from any decimal in the interval of the reals that round
to it. `shortest` looks for the first number of digits whose grid has a point in that interval: on
each grid the two neighbours of the fraction decide. Of two neighbours inside the nearer one is
taken, and the even one if they are equally near.

All arithmetic is on whole numbers: a real is a numerator over a denominator that all the reals of
one search share.
-/

set_option autoImplicit false
set_option relaxedAutoImplicit false

namespace Admission

/-- The digits of a decimal without trailing zeros, and the power of ten they are multiplied by. -/
structure Decimal where
  digits : Nat
  exponent : Int
deriving DecidableEq, Inhabited

namespace Decimal

/-- A fraction and the ends of the interval of reals that round to it, over one denominator. -/
structure Interval where
  value : Nat
  low : Nat
  high : Nat
  denominator : Nat
  /-- Whether the ends round to the fraction too. -/
  closed : Bool

/-- The interval of `mantissa · 2 ^ exponent`. The gap below is half as wide when the fraction is a
power of two with a finer binade below it. -/
def interval (mantissa : Nat) (exponent : Int) (narrowBelow : Bool) : Interval :=
  let scale := Nat.pow 2 exponent.toNat
  { value := 4 * mantissa * scale
    low := (4 * mantissa - if narrowBelow then 1 else 2) * scale
    high := (4 * mantissa + 2) * scale
    denominator := 4 * Nat.pow 2 (-exponent).toNat
    closed := mantissa % 2 = 0 }

/-- Whether a numerator over the interval's denominator times `scale` lies in the interval. -/
def Interval.contains (interval : Interval) (numerator scale : Nat) : Bool :=
  if interval.closed then interval.low * scale ≤ numerator && numerator ≤ interval.high * scale
  else interval.low * scale < numerator && numerator < interval.high * scale

/-- The number of decimal digits. -/
def digitCount (value : Nat) : Nat := (Nat.toDigits 10 value).length

/-- The position of the leading digit of a positive fraction: `p` if it is at least `10 ^ p` and
below `10 ^ (p + 1)`. -/
def leadingPosition (numerator denominator : Nat) : Int :=
  if denominator ≤ numerator then (digitCount (numerator / denominator) : Int) - 1
  else
    -- The reciprocal has this many digits, so the fraction starts at or just above its last place.
    let places := digitCount (denominator / numerator)
    if denominator ≤ numerator * Nat.pow 10 (places - 1) then -((places : Int) - 1)
    else -(places : Int)

/-- Drops trailing zeros from the digits. -/
def normalize : Nat → Nat → Int → Decimal
  | 0, digits, exponent => ⟨digits, exponent⟩
  | fuel + 1, digits, exponent =>
    if digits ≠ 0 ∧ digits % 10 = 0 then normalize fuel (digits / 10) (exponent + 1)
    else ⟨digits, exponent⟩

/-- The neighbour of the fraction that lies in the interval, on the grid of steps `10 ^ exponent`.
-/
def onGrid? (interval : Interval) (exponent : Int) : Option Nat :=
  -- Over the denominator times `down`, a step is `step` and the fraction is `value`.
  let down := Nat.pow 10 (-exponent).toNat
  let step := interval.denominator * Nat.pow 10 exponent.toNat
  let value := interval.value * down
  let below := value / step
  let inside (digits : Nat) : Bool := interval.contains (digits * step) down
  match inside below, inside (below + 1) with
  | true, true =>
    let twice := 2 * (value - below * step)
    some (if twice < step ∨ (twice = step ∧ below % 2 = 0) then below else below + 1)
  | true, false => some below
  | false, true => some (below + 1)
  | false, false => none

/-- Looks for the first grid with a point in the interval. Seventeen digits always suffice. -/
def search (interval : Interval) (leading : Int) : Nat → Nat → Decimal
  | 0, _ => ⟨0, 0⟩
  | fuel + 1, places =>
    let exponent := leading + 1 - places
    match onGrid? interval exponent with
    | some digits => normalize 20 digits exponent
    | none => search interval leading fuel (places + 1)

/-- The shortest decimal of a positive fraction. -/
def shortest (mantissa : Nat) (exponent : Int) (narrowBelow : Bool) : Decimal :=
  let interval := interval mantissa exponent narrowBelow
  search interval (leadingPosition interval.value interval.denominator) 17 1

/-- How a decimal is written: positionally unless its leading digit is too far from the point. -/
structure Layout where
  /-- The decimal point stands at most this many places to the right of the first digit. -/
  maxPoint : Int
  /-- The decimal point stands more than this many places to the left of the first digit. -/
  minPoint : Int

/-- The text of a decimal. A whole number keeps one decimal place; an exponent has a sign. -/
def Layout.write (layout : Layout) (decimal : Decimal) : String :=
  let digits := Nat.toDigits 10 decimal.digits
  let point := decimal.exponent + digits.length
  if 0 < point ∧ point ≤ layout.maxPoint then
    let whole := digits.take point.toNat ++ List.replicate (point.toNat - digits.length) '0'
    let fraction := digits.drop point.toNat
    String.ofList (whole ++ ['.'] ++ if fraction.isEmpty then ['0'] else fraction)
  else if layout.minPoint < point ∧ point ≤ 0 then
    String.ofList (['0', '.'] ++ List.replicate (-point).toNat '0' ++ digits)
  else
    let exponent := point - 1
    let sign := if exponent < 0 then '-' else '+'
    let mantissa := digits.take 1 ++ if 1 < digits.length then '.' :: digits.drop 1 else []
    String.ofList (mantissa ++ ['e', sign] ++ Nat.toDigits 10 exponent.natAbs)

end Decimal

end Admission
