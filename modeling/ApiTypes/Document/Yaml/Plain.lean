import ApiTypes.Document.Value

/-!
# What plain scalars stand for

A plain scalar is a null, a boolean, an integer, a binary floating point number, or else a text.
Integers may be written in base ten, and in base sixteen, eight or two after `0x`, `0o` or `0b`.
Digits after a leading zero make a text, and so does every number that is too great for the
format.
-/

set_option autoImplicit false

namespace ApiTypes.Yaml

open Decimal (Binary64)

/-- The value of a digit in a base of at most sixteen. -/
def digitIn? (base : Nat) (c : Char) : Option Nat := do
  let n ←
    if c.isDigit then some (c.toNat - '0'.toNat)
    else if 'a' ≤ c ∧ c ≤ 'f' then some (c.toNat - 'a'.toNat + 10)
    else if 'A' ≤ c ∧ c ≤ 'F' then some (c.toNat - 'A'.toNat + 10)
    else none
  if n < base then some n else none

/-- The number that one or more digits stand for. -/
def digitsIn? (base : Nat) (text : List Char) : Option Nat :=
  if text.isEmpty then none
  else text.foldl (fun acc c => do return base * (← acc) + (← digitIn? base c)) (some 0)

/-- The sign of a text and the text after it. -/
def splitSign : List Char → Option Bool × List Char
  | '+' :: rest => (some false, rest)
  | '-' :: rest => (some true, rest)
  | text => (none, text)

/-- Whether a text has digits after a leading zero, which makes it no number. -/
def isZeroPadded (text : List Char) : Bool :=
  match (splitSign text).2 with
  | '0' :: rest => !rest.isEmpty && rest.all Char.isDigit
  | _ => false

/-- The base that a text names before its digits, and the digits. -/
def splitBase : List Char → Nat × List Char
  | '0' :: 'x' :: rest => (16, rest)
  | '0' :: 'o' :: rest => (8, rest)
  | '0' :: 'b' :: rest => (2, rest)
  | text => (10, text)

/-- The integer that a text stands for, of whatever size. -/
def integer? (text : List Char) : Option Int :=
  let (sign, digits) := splitSign text
  let (base, rest) := splitBase digits
  if base = 10 && isZeroPadded text then none
  else
    match digitsIn? base rest with
    | none => none
    | some n => some (if sign = some true then -(n : Int) else n)

/-- Digits as a number together with their count. -/
def decimalRun (text : List Char) : List Char × List Char :=
  (text.takeWhile Char.isDigit, text.dropWhile Char.isDigit)

/-- The power of ten after a number; an exponent of very many digits counts as a very great one. -/
def power? : List Char → Option Int
  | [] => some 0
  | c :: rest =>
      if c = 'e' ∨ c = 'E' then
        let (sign, digits) := splitSign rest
        match digitsIn? 10 digits with
        | none => none
        | some n =>
            let size : Nat := min n 1000000
            some (if sign = some true then -(size : Int) else size)
      else none

/-- The digits, without zeros in front, and the power of ten of a number without sign. -/
def decimal? (text : List Char) : Option (List Char × Int) := do
  let (whole, afterWhole) := decimalRun text
  let (fraction, afterFraction) :=
    match afterWhole with
    | '.' :: rest => decimalRun rest
    | rest => ([], rest)
  if whole.isEmpty && fraction.isEmpty then none
  else
    let power ← power? afterFraction
    return ((whole ++ fraction).dropWhile (· == '0'), power - fraction.length)

/-- The finite number that a text stands for. -/
def real? (text : List Char) : Option Binary64 := do
  let (sign, unsigned) := splitSign text
  let (digits, power) ← decimal? unsigned
  Binary64.ofDecimal? (sign == some true) ((digitsIn? 10 digits).getD 0) power

/-- The spellings of numbers that are not finite. -/
def isNotFinite (text : String) : Bool :=
  [".inf", ".Inf", ".INF", "+.inf", "+.Inf", "+.INF", "-.inf", "-.Inf", "-.INF",
    ".nan", ".NaN", ".NAN"].contains text

/-- The boolean that a text stands for. -/
def bool? (text : String) : Option Bool :=
  if ["true", "True", "TRUE"].contains text then some true
  else if ["false", "False", "FALSE"].contains text then some false
  else none

/-- Whether a text stands for null. -/
def isNull (text : String) : Bool :=
  ["null", "Null", "NULL", "~"].contains text

/-- The least integer of 64 bits with a sign. -/
def leastInteger : Int := -9223372036854775808

/-- The greatest integer of 64 bits without a sign. -/
def greatestInteger : Int := 18446744073709551615

/-- The value of an integer, if documents hold integers of its size. -/
def integerValue? (n : Int) : Option Value :=
  if leastInteger ≤ n ∧ n ≤ greatestInteger then some (.num (.int n)) else none

/-- The integers of 128 bits, which are read as integers even where they cannot be held. -/
def isWide (n : Int) : Bool :=
  -170141183460469231731687303715884105728 ≤ n && n ≤ 340282366920938463463374607431768211455

/-- The value of a plain scalar; none for an integer that documents do not hold. A number that is
not finite has no value but null. -/
def plainValue? (text : String) : Option Value :=
  let chars := text.toList
  if text.isEmpty || isNull text then some .null
  else
    match bool? text with
    | some b => some (.bool b)
    | none =>
        match integer? chars with
        | some n =>
            if isWide n then integerValue? n
            -- An integer of still more digits is read as any other number.
            else
              match real? chars with
              | some x => some (.num (.real x))
              | none => some (.str text)
        | none =>
            if isZeroPadded chars then some (.str text)
            else if isNotFinite text then some .null
            else
              match real? chars with
              | some x => some (.num (.real x))
              | none => some (.str text)

end ApiTypes.Yaml
