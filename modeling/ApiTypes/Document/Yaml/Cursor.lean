/-!
# A place in a text

A cursor is what is left of a text together with the place where it starts, counted in characters,
lines and columns from zero. Lines end at a line feed, a carriage return, both together, a next
line character, or a line or paragraph separator.
-/

set_option autoImplicit false

namespace ApiTypes.Yaml

/-- The characters that a document may hold. -/
def isAllowed (c : Char) : Bool :=
  let n := c.toNat
  n == 0x09 || n == 0x0A || n == 0x0D || (0x20 ≤ n && n ≤ 0x7E) || n == 0x85
    || (0xA0 ≤ n && n ≤ 0xD7FF) || (0xE000 ≤ n && n ≤ 0xFFFD) || 0x10000 ≤ n

/-- The characters that end a line. -/
def isBreak (c : Char) : Bool :=
  c == '\n' || c == '\r' || c.toNat == 0x85 || c.toNat == 0x2028 || c.toNat == 0x2029

/-- The space and the tab. -/
def isSpacing (c : Char) : Bool :=
  c == ' ' || c == '\t'

/-- The rest of a text and its place. -/
structure Cursor where
  /-- The characters from here on. -/
  rest : List Char
  /-- How many characters are before this place. -/
  index : Nat
  /-- How many lines are before this one. -/
  line : Nat
  /-- How many characters of this line are before this place. -/
  column : Nat

namespace Cursor

/-- The start of a text. -/
def start (text : List Char) : Cursor := ⟨text, 0, 0, 0⟩

/-- The character at the cursor. -/
def peek? (c : Cursor) : Option Char := c.rest.head?

/-- Whether a given character is at the cursor. -/
def at? (c : Cursor) (char : Char) : Bool := c.rest.head? == some char

/-- Whether the text ends here. -/
def atEnd (c : Cursor) : Bool := c.rest.isEmpty

/-- Whether a space or a tab is `offset` characters further on. -/
def spacingAt (c : Cursor) (offset : Nat) : Bool :=
  (c.rest[offset]?).any isSpacing

/-- Whether a line break is at the cursor. -/
def atBreak (c : Cursor) : Bool := c.rest.head?.any isBreak

/-- Whether a space, a tab, a line break or the end is `offset` characters further on. -/
def gapAt (c : Cursor) (offset : Nat) : Bool :=
  match c.rest[offset]? with
  | none => true
  | some char => isSpacing char || isBreak char

/-- Whether a line break or the end is at the cursor. -/
def atLineEnd (c : Cursor) : Bool := c.atEnd || c.atBreak

/-- Steps over one character that ends no line. -/
def advance (c : Cursor) : Cursor :=
  match c.rest with
  | [] => c
  | _ :: rest => ⟨rest, c.index + 1, c.line, c.column + 1⟩

/-- Steps over several characters that end no line. -/
def advanceBy : Nat → Cursor → Cursor
  | 0, c => c
  | n + 1, c => advanceBy n c.advance

/-- Steps over a line break and tells how it counts in a text; stays where there is none. -/
def nextLine (c : Cursor) : List Char × Cursor :=
  match c.rest with
  | '\r' :: '\n' :: rest => (['\n'], ⟨rest, c.index + 2, c.line + 1, 0⟩)
  | char :: rest =>
      if isBreak char then
        let text := if char.toNat == 0x2028 || char.toNat == 0x2029 then char else '\n'
        ([text], ⟨rest, c.index + 1, c.line + 1, 0⟩)
      else ([], c)
  | [] => ([], c)

/-- Steps over the characters of a class that end no line. -/
def skipWhile (p : Char → Bool) (c : Cursor) : Cursor :=
  let run := c.rest.takeWhile p
  ⟨c.rest.drop run.length, c.index + run.length, c.line, c.column + run.length⟩

/-- Takes the characters of a class that end no line. -/
def takeWhile (p : Char → Bool) (c : Cursor) : List Char × Cursor :=
  (c.rest.takeWhile p, c.skipWhile p)

/-- Steps to the end of the line. -/
def skipLineRest (c : Cursor) : Cursor := c.skipWhile fun char => !isBreak char

/-- Whether a marker of three equal characters stands alone at the start of a line. -/
def atMarker (c : Cursor) (char : Char) : Bool :=
  c.column == 0 && c.rest.take 3 == [char, char, char] && c.gapAt 3

/-- Whether the start or the end of a document is marked here. -/
def atDocumentMarker (c : Cursor) : Bool := c.atMarker '-' || c.atMarker '.'

end Cursor

end ApiTypes.Yaml
