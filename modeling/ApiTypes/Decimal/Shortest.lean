import ApiTypes.Decimal.Binary64

/-!
# Shortest decimals

The decimal that stands for a binary number has the fewest digits among the decimals that round to
the number, and of those with as few digits it is the nearest. The numbers that round to
`significand * 2 ^ exponent` form an interval; counted in quarters of the last bit it reaches from
two quarters below (one below a power of two, where the lower neighbour is nearer) to two quarters
above, and its ends belong to it when the significand is even. On the grid of the multiples of a
power of ten, only the two neighbours of the number need to be tried.
-/

set_option autoImplicit false

namespace ApiTypes.Decimal

/-- What to do when two decimals of the same length are equally near. -/
inductive Tie where
  /-- Take the greater one. -/
  | away
  /-- Take the one whose last digit is even. -/
  | toEven
  deriving DecidableEq

/-- The decimal `digits * 10 ^ exponent`. -/
structure Digits where
  /-- The digits as a number. -/
  digits : Nat
  /-- The power of ten. -/
  exponent : Int
  deriving DecidableEq

/-- Moves the zeros at the end of the digits into the exponent; `budget` bounds their number. -/
def Digits.trimmed : Nat → Digits → Digits
  | 0, d => d
  | budget + 1, d =>
      if d.digits ≠ 0 ∧ d.digits % 10 = 0 then
        Digits.trimmed budget ⟨d.digits / 10, d.exponent + 1⟩
      else d

namespace Binary64

/-- The lower end, the value and the upper end of the rounding interval in quarters of the last
bit. -/
def quarters (x : Binary64) : Nat × Nat × Nat :=
  let middle := 4 * x.significand
  let below := if x.significand = pow2 52 ∧ minExponent < x.exponent then 1 else 2
  (middle - below, middle, middle + 2)

/-- How many digits stand before the decimal point: the least `w` with the number below
`10 ^ w`. -/
def decimalWidth (x : Binary64) : Int :=
  -- So many places keep a digit of the smallest number before the point.
  let shift : Nat := 400
  let n := x.significand * pow10 shift
  let whole := if 0 ≤ x.exponent then n * pow2 x.exponent.toNat else n / pow2 (-x.exponent).toNat
  ((Nat.toDigits 10 whole).length : Int) - shift

/-- The nearest multiple of `10 ^ power` in the rounding interval, if there is one. -/
def onGrid? (tie : Tie) (x : Binary64) (power : Int) : Option Digits :=
  let (low, middle, high) := x.quarters
  -- A quarter is `factor / unit` steps of the grid, so that all comparisons are between naturals.
  let exponent := x.exponent - 2
  let factor := pow2 exponent.toNat * pow10 (-power).toNat
  let unit := pow2 (-exponent).toNat * pow10 power.toNat
  let closed := x.significand % 2 = 0
  let inside (c : Nat) : Bool :=
    if closed then low * factor ≤ c * unit && c * unit ≤ high * factor
    else low * factor < c * unit && c * unit < high * factor
  let lower := middle * factor / unit
  let upper := lower + 1
  let below := middle * factor - lower * unit
  let above := upper * unit - middle * factor
  match inside lower, inside upper with
  | true, true =>
      let takeUpper :=
        if below = above then
          match tie with
          | .away => true
          | .toEven => lower % 2 = 1
        else decide (above < below)
      some ⟨if takeUpper then upper else lower, power⟩
  | true, false => some ⟨lower, power⟩
  | false, true => some ⟨upper, power⟩
  | false, false => none

/-- The shortest decimal of the absolute value. Seventeen digits always suffice. -/
def shortest (tie : Tie) (x : Binary64) : Digits :=
  if x.significand = 0 then ⟨0, 0⟩
  else
    let width := x.decimalWidth
    let found := (List.range 17).findSome? fun n => onGrid? tie x (width - (n + 1 : Nat))
    match found with
    | some d => d.trimmed 17
    | none => ⟨x.significand, x.exponent⟩

end Binary64

end ApiTypes.Decimal
