import ApiTypes.Decimal.Shortest

/-!
# Layout of decimals

Where the digits of a shortest decimal go. `positional` never writes an exponent and leaves whole
numbers without a point; it is the form of bounds in annotations. `scientific` is the form of
numbers in documents: a point is always there, and numbers of more than sixteen whole digits or
with five zeros after the point have an exponent.
-/

set_option autoImplicit false

namespace ApiTypes.Decimal

/-- A run of zeros. -/
def zeros (n : Nat) : List Char := List.replicate n '0'

/-- The decimal digits of a number. -/
def digitsOf (n : Nat) : List Char := Nat.toDigits 10 n

/-- Puts a point before the last `count` digits, with zeros in front where there are too few. -/
def withPoint (digits : List Char) (count : Nat) : List Char :=
  if count < digits.length then
    digits.take (digits.length - count) ++ '.' :: digits.drop (digits.length - count)
  else '0' :: '.' :: (zeros (count - digits.length) ++ digits)

/-- The minus sign of a negative number. -/
def signOf (negative : Bool) : List Char := if negative then ['-'] else []

/-- The form without exponent. -/
def positional (x : Binary64) : String :=
  let d := x.shortest .away
  let digits := digitsOf d.digits
  String.ofList <| signOf x.negative ++
    if 0 ≤ d.exponent then digits ++ (if d.digits = 0 then [] else zeros d.exponent.toNat)
    else withPoint digits (-d.exponent).toNat

/-- An integer in decimal. -/
def integerText (n : Int) : String :=
  String.ofList (signOf (decide (n < 0)) ++ digitsOf n.natAbs)

/-- The form with a point, and with an exponent for very great and very small numbers. -/
def scientific (x : Binary64) : String :=
  let d := x.shortest .toEven
  let digits := digitsOf d.digits
  let width : Int := digits.length + d.exponent
  String.ofList <| signOf x.negative ++
    if d.digits = 0 then ['0', '.', '0']
    else if 0 ≤ d.exponent ∧ width ≤ 16 then digits ++ zeros d.exponent.toNat ++ ['.', '0']
    else if -5 < width ∧ width ≤ 16 then withPoint digits (-d.exponent).toNat
    else
      let power := (integerText (width - 1)).toList
      match digits with
      | [] => []
      | [c] => c :: 'e' :: power
      | c :: rest => c :: '.' :: (rest ++ 'e' :: power)

end ApiTypes.Decimal
