import ApiTypes.Document.Yaml.Cursor
import ApiTypes.Text.Percent

/-!
# Scalars in a document

The four ways in which a document writes a text: plain, between single or double quotes, and as an
indented block whose lines are kept or folded. Inside plain and quoted scalars a line break
becomes a space, and of several line breaks the first is dropped. Every function returns nothing
for a text that no scalar can be written like. A budget of more than the characters that are left
suffices for every reader, since each of its steps takes one.
-/

set_option autoImplicit false

namespace ApiTypes.Yaml

/-- The blanks and line breaks between two words of a scalar, last character first. -/
structure Gap where
  /-- Spaces and tabs on the line where the gap begins. -/
  spacing : List Char := []
  /-- The first line break. -/
  firstBreak : List Char := []
  /-- The line breaks after the first. -/
  moreBreaks : List Char := []
  /-- Whether the gap goes on to another line. -/
  broken : Bool := false

namespace Gap

/-- Whether there is nothing in the gap. -/
def isEmpty (g : Gap) : Bool := !g.broken && g.spacing.isEmpty

/-- What the gap counts for between two words, last character first. -/
def folded (g : Gap) : List Char :=
  if g.broken then
    if g.firstBreak == ['\n'] then (if g.moreBreaks.isEmpty then [' '] else g.moreBreaks)
    else g.moreBreaks ++ g.firstBreak
  else g.spacing

/-- Reads a gap. In a plain scalar a tab before the column `limit` of a new line is refused. -/
def read (limit : Nat) : Nat → Gap → Cursor → Option (Gap × Cursor)
  | 0, g, c => some (g, c)
  | budget + 1, g, c =>
      match c.peek? with
      | none => some (g, c)
      | some char =>
          if isSpacing char then
            if g.broken && c.column < limit && char == '\t' then none
            else if g.broken then read limit budget g c.advance
            else read limit budget { g with spacing := char :: g.spacing } c.advance
          else if isBreak char then
            let (text, next) := c.nextLine
            if g.broken then
              read limit budget { g with moreBreaks := text ++ g.moreBreaks } next
            else read limit budget ⟨[], text, [], true⟩ next
          else some (g, c)

end Gap

/-- The characters that end a plain scalar inside a flow collection. -/
def isFlowMark (c : Char) : Bool :=
  c == ',' || c == '[' || c == ']' || c == '\x7b' || c == '\x7d'

/-- Takes the characters of a plain scalar up to a gap or its end, last one first; refuses a colon
before a flow mark inside a flow collection. -/
def plainRun (inFlow : Bool) : Nat → List Char → Cursor → Option (List Char × Cursor)
  | 0, acc, c => some (acc, c)
  | budget + 1, acc, c =>
      match c.rest with
      | [] => some (acc, c)
      | char :: rest =>
          if c.gapAt 0 then some (acc, c)
          else if inFlow && char == ':' && rest.head?.any (fun d => isFlowMark d || d == '?') then
            none
          else if (char == ':' && c.gapAt 1) || (inFlow && isFlowMark char) then some (acc, c)
          else plainRun inFlow budget (char :: acc) c.advance

/-- Reads a plain scalar. Lines after the first must be indented to `limit` outside of flow
collections. Tells the text, last character first, whether the scalar was followed by a line
break, and where it ended. -/
def plainScalar (inFlow : Bool) (limit : Nat) :
    Nat → List Char → Gap → Cursor → Option (List Char × Bool × Cursor)
  | 0, acc, g, c => some (acc, g.broken, c)
  | budget + 1, acc, g, c =>
      if c.atDocumentMarker || c.at? '#' then some (acc, g.broken, c)
      else
        match plainRun inFlow (budget + 1) [] c with
        | none => none
        | some (run, next) =>
            let joined := if run.isEmpty then acc else run ++ (g.folded ++ acc)
            let held := if run.isEmpty then g else {}
            if !(next.spacingAt 0 || next.atBreak) then some (joined, held.broken, next)
            else
              match Gap.read limit (budget + 1) held next with
              | none => none
              | some (gap, after) =>
                  if !inFlow && after.column < limit then some (joined, gap.broken, after)
                  else plainScalar inFlow limit budget joined gap after

/-- The number that hexadecimal digits stand for. -/
def hexNumber? (digits : List Char) : Option Nat :=
  digits.foldl (fun acc c => do return 16 * (← acc) + (← Text.hexValue? c)) (some 0)

/-- The character that a single letter stands for after a backslash. -/
def namedEscape? (c : Char) : Option Char :=
  match c with
  | '0' => some (Char.ofNat 0)
  | 'a' => some (Char.ofNat 7)
  | 'b' => some (Char.ofNat 8)
  | 't' => some '\t'
  | '\t' => some '\t'
  | 'n' => some '\n'
  | 'v' => some (Char.ofNat 11)
  | 'f' => some (Char.ofNat 12)
  | 'r' => some '\r'
  | 'e' => some (Char.ofNat 27)
  | ' ' => some ' '
  | '\x22' => some '\x22'
  | '/' => some '/'
  | '\x5c' => some '\x5c'
  | 'N' => some (Char.ofNat 0x85)
  | '_' => some (Char.ofNat 0xA0)
  | 'L' => some (Char.ofNat 0x2028)
  | 'P' => some (Char.ofNat 0x2029)
  | _ => none

/-- How many hexadecimal digits follow a letter after a backslash. -/
def codeLength? (c : Char) : Option Nat :=
  match c with
  | 'x' => some 2
  | 'u' => some 4
  | 'U' => some 8
  | _ => none

/-- The character of a code point, if it has one. -/
def scalarValue? (n : Nat) : Option Char :=
  if n < 0xD800 ∨ (0xDFFF < n ∧ n ≤ 0x10FFFF) then some (Char.ofNat n) else none

/-- Reads what follows a backslash between double quotes. -/
def escaped? (c : Cursor) : Option (Char × Cursor) := do
  let letter ← c.peek?
  match namedEscape? letter with
  | some char => return (char, c.advance)
  | none =>
      let count ← codeLength? letter
      let digits := (c.rest.drop 1).take count
      if digits.length = count then
        let char ← (hexNumber? digits).bind scalarValue?
        return (char, Cursor.advanceBy (count + 1) c)
      else none

/-- What stopped a run of characters between quotes. -/
inductive QuotedStop where
  /-- A blank, a line break, or the closing quote. -/
  | gap
  /-- An escaped line break. -/
  | escapedBreak

/-- Takes the characters of a quoted scalar up to a gap or the closing quote, last one first. -/
def quotedRun (quote : Char) :
    Nat → List Char → Cursor → Option (List Char × QuotedStop × Cursor)
  | 0, acc, c => some (acc, .gap, c)
  | budget + 1, acc, c =>
      match c.rest with
      | [] => some (acc, .gap, c)
      | char :: rest =>
          if c.gapAt 0 then some (acc, .gap, c)
          else if quote == '\x27' && char == quote && rest.head? == some quote then
            quotedRun quote budget (quote :: acc) (Cursor.advanceBy 2 c)
          else if char == quote then some (acc, .gap, c)
          else if quote == '\x22' && char == '\x5c' then
            if rest.head?.any isBreak then
              some (acc, .escapedBreak, c.advance.nextLine.2)
            else
              match escaped? c.advance with
              | none => none
              | some (value, next) => quotedRun quote budget (value :: acc) next
          else quotedRun quote budget (char :: acc) c.advance

/-- Reads a quoted scalar from after its opening quote; tells the text, last character first. -/
def quotedScalar (quote : Char) : Nat → List Char → Cursor → Option (List Char × Cursor)
  | 0, _, _ => none
  | budget + 1, acc, c =>
      if c.atDocumentMarker || c.atEnd then none
      else
        match quotedRun quote (budget + 1) [] c with
        | none => none
        | some (run, stop, next) =>
            let joined := run ++ acc
            if next.at? quote then some (joined, next.advance)
            else
              let held : Gap :=
                match stop with
                | .gap => {}
                | .escapedBreak => { broken := true }
              match Gap.read 0 (budget + 1) held next with
              | none => none
              | some (gap, after) => quotedScalar quote budget (gap.folded ++ joined) after

/-- What happens to the line breaks at the end of a block scalar. -/
inductive Chomping where
  | strip
  | clip
  | keep
  deriving DecidableEq

/-- Reads the chomping mark after the block mark. -/
def chomping? (c : Cursor) : Option (Chomping × Cursor) :=
  if c.at? '+' then some (.keep, c.advance)
  else if c.at? '-' then some (.strip, c.advance)
  else none

/-- Reads the indentation digit after the block mark; zero is refused. -/
def increment? (c : Cursor) : Option (Option Nat × Cursor) :=
  match c.peek? with
  | some char =>
      if char.isDigit then
        if char == '0' then none else some (some (char.toNat - '0'.toNat), c.advance)
      else some (none, c)
  | none => some (none, c)

/-- Reads the marks after the block mark, which come in either order. -/
def blockHeader? (c : Cursor) : Option (Chomping × Option Nat × Cursor) :=
  match chomping? c with
  | some (chomping, next) => do
      let (increment, after) ← increment? next
      return (chomping, increment, after)
  | none => do
      let (increment, next) ← increment? c
      if increment.isNone then return (.clip, none, next)
      match chomping? next with
      | some (chomping, after) => return (chomping, increment, after)
      | none => return (.clip, increment, next)

/-- Reads the empty lines and the indentation before a line of a block scalar. `indent` is zero as
long as the indentation is not known. Tells the line breaks, last one first, the widest
indentation met, and the place. -/
def blockBreaks (indent : Nat) :
    Nat → List Char → Nat → Cursor → Option (List Char × Nat × Cursor)
  | 0, acc, widest, c => some (acc, widest, c)
  | budget + 1, acc, widest, c =>
      let spaces := (c.rest.takeWhile (· == ' ')).length
      -- Blanks beyond the indentation belong to the line.
      let eaten := if indent = 0 then spaces else min spaces (indent - c.column)
      let here := Cursor.advanceBy eaten c
      let widest := max widest here.column
      if (indent = 0 || here.column < indent) && here.at? '\t' then none
      else if here.atBreak then
        let (text, next) := here.nextLine
        blockBreaks indent budget (text ++ acc) widest next
      else some (acc, widest, here)

/-- Reads the lines of a block scalar. `lead` is the line break before the current line, `breaks`
the empty lines after it, and `blank` whether the line before began with a blank. -/
def blockLines (isFolded : Bool) (indent : Nat) :
    Nat → List Char → List Char → List Char → Bool → Cursor →
      Option (List Char × List Char × List Char × Cursor)
  | 0, acc, lead, breaks, _, c => some (acc, lead, breaks, c)
  | budget + 1, acc, lead, breaks, blank, c =>
      if c.column == indent && !c.atEnd then
        let here := c.spacingAt 0
        let joined :=
          -- A line break is folded only between two lines that begin with no blank.
          if isFolded && lead == ['\n'] && !blank && !here then
            if breaks.isEmpty then ' ' :: acc else breaks ++ acc
          else breaks ++ (lead ++ acc)
        let (line, next) := c.takeWhile fun char => !isBreak char
        let (text, after) := next.nextLine
        match blockBreaks indent (budget + 1) [] 0 after with
        | none => none
        | some (more, _, start) =>
            blockLines isFolded indent budget (line.reverse ++ joined) text more here start
      else some (acc, lead, breaks, c)

/-- Reads a block scalar from after its mark. `parent` is the indentation of the enclosing block,
`-1` for none. -/
def blockScalar (isFolded : Bool) (parent : Int) (budget : Nat) (c : Cursor) :
    Option (List Char × Cursor) := do
  let (chomping, increment, marks) ← blockHeader? c
  let spaced := marks.skipWhile isSpacing
  let comment := if spaced.at? '#' then spaced.skipLineRest else spaced
  if !comment.atLineEnd then none
  else
    let first := comment.nextLine.2
    let given : Nat :=
      match increment with
      | some n => (if 0 ≤ parent then parent + n else n).toNat
      | none => 0
    let (breaks, widest, start) ← blockBreaks given budget [] 0 first
    let indent := if given = 0 then max widest (max (parent + 1).toNat 1) else given
    let (text, lead, tail, after) ←
      blockLines isFolded indent budget [] [] breaks false start
    let ended := if chomping = .strip then text else lead ++ text
    return ((if chomping = .keep then tail ++ ended else ended), after)

end ApiTypes.Yaml
