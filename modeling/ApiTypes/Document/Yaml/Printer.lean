import ApiTypes.Document.Json
import ApiTypes.Document.Yaml.Cursor
import ApiTypes.Document.Yaml.Plain

/-!
# Printing YAML

A document value as block YAML. A text is plain if it would be read back as the same text, and
else stands between single quotes, or between double quotes if it holds characters that must be
escaped; a text of several lines is a literal block. The items of a list stand at the column of
the key before them, the members of a map two columns further. A key that is long or has several
lines has a mark of its own.

The printer makes lines, each with the character that ends it, and indents them as it puts them
below a mark.
-/

set_option autoImplicit false

namespace ApiTypes.Yaml

/-! ## Texts -/

/-- Characters that stand for themselves in every kind of text. -/
def isPrinted (c : Char) : Bool :=
  let n := c.toNat
  n == 0x0A || (0x20 ≤ n && n ≤ 0x7E) || (0xA0 ≤ n && n ≤ 0xD7FF)
    || (0xE000 ≤ n && n ≤ 0xFFFD && n != 0xFEFF) || 0x10000 ≤ n

/-- Whether a text ends, or goes on with a blank or a line break. -/
def beforeGap (rest : List Char) : Bool :=
  rest.head?.all fun c => isSpacing c || isBreak c

/-- Whether a text holds, after its first character, a colon or a number sign that would end a
plain scalar; `afterGap` tells whether a blank is before the text. -/
def hasLaterMark (afterGap : Bool) : List Char → Bool
  | [] => false
  | c :: rest =>
      (c == ':' && beforeGap rest) || (c == '#' && afterGap)
        || hasLaterMark (isSpacing c || isBreak c) rest

/-- Whether the start of a text, or a mark in it, keeps it from being plain. -/
def hasMark (text : List Char) : Bool :=
  match text with
  | [] => false
  | c :: rest =>
      ['#', ',', '[', ']', '\x7b', '\x7d', '&', '*', '!', '|', '>', '\x27', '\x22', '%', '@',
        '\x60'].contains c
        || (['?', ':', '-'].contains c && beforeGap rest)
        || text.take 3 == ['-', '-', '-'] || text.take 3 == ['.', '.', '.']
        || hasLaterMark (isSpacing c || isBreak c) rest

/-- Whether a character that satisfies `p` comes right before one that satisfies `q`. -/
def hasPair (p q : Char → Bool) (text : List Char) : Bool :=
  (text.zip text.tail).any fun (a, b) => p a && q b

/-- Whether a text may stand between single quotes. -/
def allowsSingle (text : List Char) : Bool :=
  text.all isPrinted && !hasPair isBreak (· == ' ') text && !hasPair (· == ' ') isBreak text

/-- Whether a text may be plain. -/
def allowsPlain (text : List Char) : Bool :=
  allowsSingle text && !text.any isBreak && text.head? != some ' ' && text.getLast? != some ' '
    && !hasMark text

/-- Whether a text may be a literal block. -/
def allowsLiteral (text : List Char) : Bool :=
  text.all isPrinted && !hasPair (· == ' ') isBreak text && text.getLast? != some ' '

/-- Whether a plain scalar would be read as a text that looks like no number. -/
def readsAsText (text : String) : Bool :=
  match plainValue? text with
  | some (.str _) => !isZeroPadded text.toList
  | _ => false

/-- The ways in which a text is written. -/
inductive Style where
  | plain
  | single
  | double
  | literal
  deriving DecidableEq

/-- How a text is written. -/
def Style.of (text : String) : Style :=
  let chars := text.toList
  if chars.contains '\n' then (if allowsLiteral chars then literal else double)
  else if readsAsText text && allowsPlain chars then plain
  else if allowsSingle chars then single
  else double

/-- The letter that stands for a character after a backslash. -/
def escapeLetter? (c : Char) : Option Char :=
  match c.toNat with
  | 0x00 => some '0'
  | 0x07 => some 'a'
  | 0x08 => some 'b'
  | 0x09 => some 't'
  | 0x0A => some 'n'
  | 0x0B => some 'v'
  | 0x0C => some 'f'
  | 0x0D => some 'r'
  | 0x1B => some 'e'
  | 0x22 => some '\x22'
  | 0x5C => some '\x5c'
  | 0x85 => some 'N'
  | 0x2028 => some 'L'
  | 0x2029 => some 'P'
  | _ => none

/-- Upper case hexadecimal digits in the given number of places. -/
def hexPlaces (places n : Nat) : List Char :=
  let digits := (Nat.toDigits 16 n).map Char.toUpper
  Decimal.zeros (places - digits.length) ++ digits

/-- A character by its code point, after a backslash. -/
def codeEscape (n : Nat) : List Char :=
  if n ≤ 0xFF then 'x' :: hexPlaces 2 n
  else if n ≤ 0xFFFF then 'u' :: hexPlaces 4 n
  else 'U' :: hexPlaces 8 n

/-- A character between double quotes. -/
def doubleChar (c : Char) : List Char :=
  match escapeLetter? c with
  | some letter => ['\x5c', letter]
  | none => if isPrinted c then [c] else '\x5c' :: codeEscape c.toNat

/-- A text without its line breaks being laid out. -/
def written (style : Style) (text : List Char) : List Char :=
  match style with
  | .single => '\x27' :: (text.flatMap fun c => if c == '\x27' then [c, c] else [c]) ++ ['\x27']
  | .double => '\x22' :: text.flatMap doubleChar ++ ['\x22']
  | _ => text

/-- What follows the mark of a literal block: how the block is indented, if its first line does
not show it, and what happens to the line breaks at its end. -/
def literalHeader (text : List Char) : List Char :=
  (if text.head?.any (fun c => c == ' ' || isBreak c) then ['2'] else []) ++
    match text.reverse with
    | [] => ['-']
    | [c] => if isBreak c then ['+'] else ['-']
    | c :: d :: _ => if isBreak c then (if isBreak d then ['+'] else []) else ['-']

/-! ## Lines -/

/-- A line with the character that ends it. -/
abbrev Line := List Char

/-- Cuts a text into lines; a line feed is added where the last line has no end. -/
def cutLines : List Char → List Line
  | [] => []
  | c :: rest =>
      if isBreak c then [c] :: cutLines rest
      else
        match cutLines rest with
        | [] => [[c, '\n']]
        | line :: lines => (c :: line) :: lines

/-- A line two columns further, unless it is empty. -/
def indented (line : Line) : Line :=
  if line.head?.all isBreak then line else ' ' :: ' ' :: line

/-- Puts lines after a mark, and all but the first two columns further. -/
def hang (mark : List Char) : List Line → List Line
  | [] => []
  | first :: rest => (mark ++ first) :: rest.map indented

/-- The lines of a text, not indented. -/
def textLines (text : String) : List Line :=
  match Style.of text with
  | .literal => ('|' :: (literalHeader text.toList ++ ['\n'])) :: cutLines text.toList
  | style => cutLines (written style text.toList)

/-- Whether a key needs no mark: it has one line of at most 128 bytes. -/
def isSimpleKey (key : String) : Bool :=
  key.utf8ByteSize ≤ 128 && !key.toList.any isBreak

/-- A member of a map, from the lines of its value. -/
def memberLines (key : String) (value : Value) (lines : List Line) : List Line :=
  if isSimpleKey key then
    let start := written (Style.of key) key.toList
    match value with
    -- The dash of an item sets it off from the key, so the items need no columns of their own.
    | .list (_ :: _) => (start ++ [':', '\n']) :: lines
    | .object (_ :: _) => (start ++ [':', '\n']) :: lines.map indented
    | _ => hang (start ++ [':', ' ']) lines
  else hang ['?', ' '] (textLines key) ++ hang [':', ' '] lines

mutual

/-- The lines of a value. -/
def valueLines : Value → List Line
  | .null => [['n', 'u', 'l', 'l', '\n']]
  | .bool true => [['t', 'r', 'u', 'e', '\n']]
  | .bool false => [['f', 'a', 'l', 's', 'e', '\n']]
  | .num n => [(Json.number n).toList ++ ['\n']]
  | .str s => textLines s
  | .list [] => [['[', ']', '\n']]
  | .list items => itemsLines items
  | .object [] => [['\x7b', '\x7d', '\n']]
  | .object members => membersLines members

/-- The lines of the items of a list. -/
def itemsLines : List Value → List Line
  | [] => []
  | item :: rest => hang ['-', ' '] (valueLines item) ++ itemsLines rest

/-- The lines of the members of a map. -/
def membersLines : List (String × Value) → List Line
  | [] => []
  | (key, value) :: rest => memberLines key value (valueLines value) ++ membersLines rest

end

/-- A value as a document. -/
def print (v : Value) : String :=
  let lines :=
    match v with
    | .list _ => valueLines v
    | .object _ => valueLines v
    | _ => hang [] (valueLines v)
  String.ofList lines.flatten

end ApiTypes.Yaml
