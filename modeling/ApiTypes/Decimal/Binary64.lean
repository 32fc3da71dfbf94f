/-!
# Binary floating point numbers

Finite numbers of the 64-bit binary format, kept as a sign, a significand of at most 53 bits and a
power of two. Rounding is to the nearest number, and of two equally near ones to the one whose
significand is even; it is exact arithmetic on natural numbers.
-/

set_option autoImplicit false

namespace ApiTypes.Decimal

/-- A power of two. -/
def pow2 (n : Nat) : Nat := Nat.pow 2 n

/-- A power of ten. -/
def pow10 (n : Nat) : Nat := Nat.pow 10 n

/-- The number `significand * 2 ^ exponent`, negated if `negative`. -/
structure Binary64 where
  /-- Whether the sign is a minus; zero has a sign too. -/
  negative : Bool
  /-- The significand, below `2 ^ 53`. -/
  significand : Nat
  /-- The power of two, at least `-1074`. -/
  exponent : Int
  deriving DecidableEq

namespace Binary64

/-- The least exponent of the format. -/
def minExponent : Int := -1074

/-- The greatest exponent of the format. -/
def maxExponent : Int := 971

/-- Zero with a plus sign. -/
def zero : Binary64 := ⟨false, 0, minExponent⟩

instance : Inhabited Binary64 := ⟨zero⟩

/-- The quotient of two numbers, rounded to the nearest, a half to the even neighbour. -/
def divRound (num den : Nat) : Nat :=
  let low := num / den
  let twice := 2 * (num % den)
  if twice < den then low
  else if twice = den then (if low % 2 = 0 then low else low + 1)
  else low + 1

/-- The numerator and the denominator of `num / den / 2 ^ exponent`. -/
def scaled (num den : Nat) (exponent : Int) : Nat × Nat :=
  if 0 ≤ exponent then (num, den * pow2 exponent.toNat)
  else (num * pow2 (-exponent).toNat, den)

/-- The exponent at which `num / den` has a significand of 53 bits, not below the least one. -/
def exponentOf (num den : Nat) : Int :=
  let guess : Int := (num.log2 : Int) - (den.log2 : Int) - 53
  let (n, d) := scaled num den guess
  max minExponent (if pow2 53 ≤ n / d then guess + 1 else guess)

/-- The number nearest to `num / den`; its exponent may lie above the format's. -/
def nearest (negative : Bool) (num den : Nat) : Binary64 :=
  if num = 0 then ⟨negative, 0, minExponent⟩
  else
    let exponent := exponentOf num den
    let (n, d) := scaled num den exponent
    let significand := divRound n d
    if significand = pow2 53 then ⟨negative, pow2 52, exponent + 1⟩
    else ⟨negative, significand, exponent⟩

/-- Whether the exponent lies within the format. -/
def inRange (x : Binary64) : Bool :=
  x.exponent ≤ maxExponent

/-- The number nearest to an integer. -/
def ofInt (n : Int) : Binary64 :=
  nearest (decide (n < 0)) n.natAbs 1

/-- The number nearest to `digits * 10 ^ exponent`, if the format holds it. The guards keep the
powers of ten small: beyond them the number is too great for the format, or rounds to zero. -/
def ofDecimal? (negative : Bool) (digits : Nat) (exponent : Int) : Option Binary64 :=
  let width : Int := (Nat.toDigits 10 digits).length
  if digits = 0 ∨ width + exponent < -400 then some ⟨negative, 0, minExponent⟩
  else if 400 < width + exponent then none
  else
    let x :=
      if 0 ≤ exponent then nearest negative (digits * pow10 exponent.toNat) 1
      else nearest negative digits (pow10 (-exponent).toNat)
    if x.inRange then some x else none

end Binary64

end ApiTypes.Decimal
