import ApiTypes.Decimal.Layout
import ApiTypes.Document.Value
import ApiTypes.Text.Quoted

/-!
# JSON text

The JSON form of a document value, on one line (`Value.compact`) or with one member or item to a
line (`Value.pretty`). Strings escape the double quote, the backslash and the control characters
below the space; all other characters stand for themselves.
-/

set_option autoImplicit false

namespace ApiTypes

open Text (quoteMark escapeMark)

namespace Json

/-- A control character by its code, in four hexadecimal digits. -/
def codeEscape (c : Char) : List Char :=
  let digits := Text.hexDigits c.toNat
  escapeMark :: 'u' :: (Decimal.zeros (4 - digits.length) ++ digits)

/-- One character inside a string. -/
def escapeChar (c : Char) : List Char :=
  if c = quoteMark then [escapeMark, quoteMark]
  else if c = escapeMark then [escapeMark, escapeMark]
  else if c = '\n' then [escapeMark, 'n']
  else if c = '\t' then [escapeMark, 't']
  else if c = '\r' then [escapeMark, 'r']
  else if c.toNat = 8 then [escapeMark, 'b']
  else if c.toNat = 12 then [escapeMark, 'f']
  else if c.toNat < 0x20 then codeEscape c
  else [c]

/-- A text between double quotes. -/
def quoted (text : String) : String :=
  String.ofList (quoteMark :: (text.toList.flatMap escapeChar ++ [quoteMark]))

/-- A number. -/
def number : Number → String
  | .int n => Decimal.integerText n
  | .real x => Decimal.scientific x

end Json

namespace Value

mutual

/-- The value on one line, without blanks. -/
def compact : Value → String
  | null => "null"
  | bool true => "true"
  | bool false => "false"
  | num n => Json.number n
  | str s => Json.quoted s
  | list items => "[" ++ ",".intercalate (compactItems items) ++ "]"
  | object members => "\x7b" ++ ",".intercalate (compactMembers members) ++ "\x7d"

/-- The items of a list on one line. -/
def compactItems : List Value → List String
  | [] => []
  | item :: rest => compact item :: compactItems rest

/-- The members of an object on one line. -/
def compactMembers : List (String × Value) → List String
  | [] => []
  | (name, value) :: rest => (Json.quoted name ++ ":" ++ compact value) :: compactMembers rest

end

/-- A line break and two blanks for every level. -/
def jsonBreak (level : Nat) : String :=
  "\n" ++ String.ofList (List.replicate (2 * level) ' ')

/-- Lines between brackets, one level deeper than the brackets; nothing at all between the
brackets of an empty list. -/
def bracketed (opening closing : String) (level : Nat) (lines : List String) : String :=
  if lines.isEmpty then opening ++ closing
  else
    opening ++ jsonBreak (level + 1) ++ ("," ++ jsonBreak (level + 1)).intercalate lines
      ++ jsonBreak level ++ closing

mutual

/-- The value with one item or member to a line; `level` is the depth of the value. -/
def prettyAt (level : Nat) : Value → String
  | null => "null"
  | bool true => "true"
  | bool false => "false"
  | num n => Json.number n
  | str s => Json.quoted s
  | list items => bracketed "[" "]" level (prettyItems (level + 1) items)
  | object members => bracketed "\x7b" "\x7d" level (prettyMembers (level + 1) members)

/-- The items of a list, each on a line of its own. -/
def prettyItems (level : Nat) : List Value → List String
  | [] => []
  | item :: rest => prettyAt level item :: prettyItems level rest

/-- The members of an object, each on a line of its own. -/
def prettyMembers (level : Nat) : List (String × Value) → List String
  | [] => []
  | (name, value) :: rest =>
      (Json.quoted name ++ ": " ++ prettyAt level value) :: prettyMembers level rest

end

/-- The value with one item or member to a line. -/
def pretty (value : Value) : String := prettyAt 0 value

end Value

end ApiTypes
