import ApiTypes.Document.Yaml.Scalar
import ApiTypes.Document.Yaml.Token

/-!
# Layout of a document

Reads a document into tokens. The layout is the open blocks with their columns, the depth of the
open flow collections, and at each depth the place where a key without a mark may have begun: that
a scalar was a key is known only at the colon after it, which must follow on the same line and
within 1024 characters. The key mark, and the start of a block that begins with the key, are then
put before the token that the key began with.
-/

set_option autoImplicit false

namespace ApiTypes.Yaml

/-- A place where a key without a mark may have begun. -/
structure KeyStart where
  /-- The number of tokens before it. -/
  position : Nat
  /-- Whether the layout leaves no other reading, so that the colon must come. -/
  required : Bool
  /-- Where it is. -/
  place : Cursor

/-- The state of reading a document into tokens. -/
structure Layout where
  /-- What is left to read. -/
  cursor : Cursor
  /-- More than the number of characters of the document. -/
  budget : Nat
  /-- The column of the innermost open block, `-1` for none. -/
  indent : Int := -1
  /-- The columns of the blocks around it, innermost first. -/
  outer : List Int := []
  /-- The number of open flow collections. -/
  depth : Nat := 0
  /-- Whether a key without a mark may begin here. -/
  keyAllowed : Bool := true
  /-- The possible start of a key at this depth. -/
  keyStart : Option KeyStart := none
  /-- The possible starts of keys at the depths around it, innermost first. -/
  outerKeys : List (Option KeyStart) := []
  /-- The tokens so far. -/
  tokens : Array Token := #[]

namespace Layout

/-- Whether a flow collection is open. -/
def inFlow (s : Layout) : Bool := s.depth != 0

/-- Adds a token. -/
def emit (s : Layout) (t : Token) : Layout := { s with tokens := s.tokens.push t }

/-- Puts a token before the one at `position`. -/
def emitAt (s : Layout) (position : Nat) (t : Token) : Layout :=
  { s with tokens := s.tokens.insertIdxIfInBounds position t }

/-- Steps over `n` characters. -/
def skip (s : Layout) (n : Nat) : Layout := { s with cursor := Cursor.advanceBy n s.cursor }

/-- Gives up the possible start of a key; refused where the colon must come. -/
def dropKey (s : Layout) : Option Layout :=
  match s.keyStart with
  | some k => if k.required then none else some { s with keyStart := none }
  | none => some s

/-- Whether a colon here would be too far from the start of the key. -/
def isStale (s : Layout) (k : KeyStart) : Bool :=
  k.place.line < s.cursor.line || k.place.index + 1024 < s.cursor.index

/-- Gives up the possible starts of keys that are too far back. -/
def dropStaleKeys (s : Layout) : Option Layout := do
  let fresh (k : Option KeyStart) : Option (Option KeyStart) :=
    match k with
    | some k =>
        if s.isStale k then (if k.required then none else some none) else some (some k)
    | none => some none
  let outerKeys ← s.outerKeys.mapM fresh
  let keyStart ← fresh s.keyStart
  return { s with keyStart, outerKeys }

/-- Notes that a key may begin here, if one may. -/
def noteKey (s : Layout) : Option Layout :=
  if s.keyAllowed then do
    let s ← s.dropKey
    let required := !s.inFlow && s.indent == s.cursor.column
    return { s with keyStart := some ⟨s.tokens.size, required, s.cursor⟩ }
  else some s

/-- Opens a block at a column deeper than the innermost one; its first token goes to
`position`. -/
def openBlock (s : Layout) (column position : Nat) (start : Token) : Layout :=
  if !s.inFlow && s.indent < column then
    { s with outer := s.indent :: s.outer, indent := column }.emitAt position start
  else s

/-- Closes the blocks deeper than `column`, which has no effect inside flow collections. -/
def closeBlocks (s : Layout) (column : Int) : Layout :=
  if s.inFlow then s else close (s.outer.length + 1) s
where
  /-- Closes blocks one by one. -/
  close : Nat → Layout → Layout
    | 0, s => s
    | budget + 1, s =>
        if column < s.indent then
          let left : Layout := { s with indent := s.outer.headD (-1), outer := s.outer.tail }
          close budget (left.emit .blockEnd)
        else s

/-- Steps over blanks, comments and line breaks to the next token. -/
def toNextToken : Nat → Layout → Layout
  | 0, s => s
  | budget + 1, s =>
      let atMark := s.cursor.index == 0 && s.cursor.rest.head?.any (·.toNat == 0xFEFF)
      let c := if atMark then s.cursor.advance else s.cursor
      -- A tab is a blank only where no block may begin.
      let tabs := s.inFlow || !s.keyAllowed
      let spaced := c.skipWhile fun char => char == ' ' || (tabs && char == '\t')
      let here := if spaced.at? '#' then spaced.skipLineRest else spaced
      if here.atBreak then
        -- Outside of flow collections a key may begin on every line.
        toNextToken budget
          { s with cursor := here.nextLine.2, keyAllowed := s.keyAllowed || !s.inFlow }
      else { s with cursor := here }

/-- The letters, digits, dash and underscore that names of anchors and handles are made of. -/
def isNameChar (c : Char) : Bool := c.isAlphanum || c == '-' || c == '_'

/-- Reads the name of an anchor or an alias. -/
def anchorName? (c : Cursor) : Option (String × Cursor) :=
  let (name, next) := c.takeWhile isNameChar
  let ended := next.gapAt 0 || next.rest.head?.any
    (fun char => ['?', ':', ',', ']', '\x7d', '%', '@', '\x60'].contains char)
  if name.isEmpty || !ended then none else some (String.ofList name, next)

/-- Reads an anchor or an alias. -/
def readAnchor (s : Layout) (make : String → Token) : Option Layout := do
  let s ← s.noteKey
  let (name, next) ← anchorName? s.cursor.advance
  return { s with cursor := next, keyAllowed := false }.emit (make name)

/-- The characters of a tag after its handle; a verbatim tag also has commas and brackets. -/
def isTagChar (verbatim : Bool) (c : Char) : Bool :=
  isNameChar c || [';', '/', '?', ':', '@', '&', '=', '+', '$', '.', '!', '~', '*', '\x27', '(',
    ')'].contains c || (verbatim && [',', '[', ']'].contains c)

/-- Reads the characters of a tag, with percent escapes for bytes. -/
def tagText? (verbatim : Bool) : Nat → List Char → Cursor → Option (List Char × Cursor)
  | 0, acc, c => some (acc.reverse, c)
  | budget + 1, acc, c =>
      match c.rest with
      | '%' :: a :: b :: _ =>
          if (Text.hexValue? a).isSome && (Text.hexValue? b).isSome then
            tagText? verbatim budget (b :: a :: '%' :: acc) (Cursor.advanceBy 3 c)
          else none
      | char :: _ =>
          if isTagChar verbatim char then tagText? verbatim budget (char :: acc) c.advance
          else if char == '%' then none
          else some (acc.reverse, c)
      | [] => some (acc.reverse, c)

/-- The handle and the rest of a tag, read from its exclamation mark. -/
def tagParts? (c : Cursor) : Option (String × String × Cursor) :=
  let read (verbatim : Bool) (c : Cursor) := tagText? verbatim (c.rest.length + 1) [] c
  let decoded (text : List Char) := String.ofList (Text.percentDecode text)
  if c.rest[1]? == some '<' then do
    let (text, next) ← read true (Cursor.advanceBy 2 c)
    if text.isEmpty || !next.at? '>' then none else some ("", decoded text, next.advance)
  else
    let (name, afterName) := c.advance.takeWhile isNameChar
    if afterName.at? '!' then do
      let (text, next) ← read false afterName.advance
      if text.isEmpty then none
      else some (String.ofList ('!' :: (name ++ ['!'])), decoded text, next)
    else do
      let (text, next) ← read false afterName
      let suffix := name ++ text
      if suffix.isEmpty then some ("", "!", next) else some ("!", decoded suffix, next)

/-- Reads a tag. -/
def readTag (s : Layout) : Option Layout := do
  let s ← s.noteKey
  let (handle, suffix, next) ← tagParts? s.cursor
  if next.gapAt 0 || (s.inFlow && next.at? ',') then
    return { s with cursor := next, keyAllowed := false }.emit (.tag handle suffix)
  else none

/-- Reads a block scalar. -/
def readBlockScalar (s : Layout) (isFolded : Bool) : Option Layout := do
  let s ← s.dropKey
  let (text, next) ← blockScalar isFolded s.indent s.budget s.cursor.advance
  return { s with cursor := next, keyAllowed := true }.emit
    (.scalar (String.ofList text.reverse) false)

/-- Reads a quoted scalar. -/
def readQuoted (s : Layout) (quote : Char) : Option Layout := do
  let s ← s.noteKey
  let c := s.cursor.advance
  let (text, next) ← quotedScalar quote s.budget [] c
  return { s with cursor := next, keyAllowed := false }.emit
    (.scalar (String.ofList text.reverse) false)

/-- Reads a plain scalar. -/
def readPlain (s : Layout) : Option Layout := do
  let s ← s.noteKey
  let limit := (s.indent + 1).toNat
  let (text, broken, next) ←
    plainScalar s.inFlow limit s.budget [] {} s.cursor
  return { s with cursor := next, keyAllowed := broken }.emit
    (.scalar (String.ofList text.reverse) true)

/-- Reads the number of a version. -/
def versionNumber? (c : Cursor) : Option (Nat × Cursor) :=
  let (digits, next) := c.takeWhile Char.isDigit
  if digits.isEmpty || 9 < digits.length then none
  else some (digits.foldl (fun n d => 10 * n + (d.toNat - '0'.toNat)) 0, next)

/-- Reads what follows the name of a directive. -/
def directiveToken? (name : List Char) (c : Cursor) : Option (Token × Cursor) :=
  let spaced := c.skipWhile isSpacing
  if name == ['Y', 'A', 'M', 'L'] then do
    let (major, afterMajor) ← versionNumber? spaced
    if !afterMajor.at? '.' then none
    else
      let (minor, next) ← versionNumber? afterMajor.advance
      return (.versionDirective major minor, next)
  else if name == ['T', 'A', 'G'] && spaced.at? '!' then do
    let (inner, afterName) := spaced.advance.takeWhile isNameChar
    let closed := afterName.at? '!'
    let next := if closed then afterName.advance else afterName
    let handle := '!' :: (inner ++ (if closed then ['!'] else []))
    if (!closed && handle != ['!']) || !next.spacingAt 0 then none
    else
      let start := next.skipWhile isSpacing
      let (text, after) ← tagText? true (start.rest.length + 1) [] start
      if text.isEmpty || !after.gapAt 0 then none
      else return (.tagDirective (String.ofList handle)
        (String.ofList (Text.percentDecode text)), after)
  else none

/-- Reads a directive. -/
def readDirective (s : Layout) : Option Layout := do
  let s ← (s.closeBlocks (-1)).dropKey
  let (name, afterName) := s.cursor.advance.takeWhile isNameChar
  if name.isEmpty || !afterName.gapAt 0 then none
  else
    let (token, next) ← directiveToken? name afterName
    let spaced := next.skipWhile isSpacing
    let here := if spaced.at? '#' then spaced.skipLineRest else spaced
    if here.atLineEnd then
      return { s with cursor := here.nextLine.2, keyAllowed := false }.emit token
    else none

/-- Reads the marker of the start or the end of a document. -/
def readMarker (s : Layout) (t : Token) : Option Layout := do
  let s ← (s.closeBlocks (-1)).dropKey
  return { s.skip 3 with keyAllowed := false }.emit t

/-- Opens a flow collection. -/
def openFlow (s : Layout) (t : Token) : Option Layout := do
  let s ← s.noteKey
  return { s.skip 1 with
    depth := s.depth + 1, keyStart := none, outerKeys := s.keyStart :: s.outerKeys,
    keyAllowed := true }.emit t

/-- Closes a flow collection. -/
def closeFlow (s : Layout) (t : Token) : Option Layout := do
  let s ← s.dropKey
  let left : Layout :=
    if s.inFlow then
      { s with depth := s.depth - 1, keyStart := s.outerKeys.headD none,
               outerKeys := s.outerKeys.tail }
    else s
  return { left.skip 1 with keyAllowed := false }.emit t

/-- Reads the comma between the items of a flow collection. -/
def readFlowItem (s : Layout) : Option Layout := do
  let s ← s.dropKey
  return { s.skip 1 with keyAllowed := true }.emit .flowItem

/-- Reads the dash before an item of a block list. -/
def readBlockItem (s : Layout) : Option Layout :=
  if !s.inFlow && !s.keyAllowed then none
  else do
    let s ← (s.openBlock s.cursor.column s.tokens.size .blockListStart).dropKey
    return { s.skip 1 with keyAllowed := true }.emit .blockItem

/-- Reads the mark before a key. -/
def readKey (s : Layout) : Option Layout :=
  if !s.inFlow && !s.keyAllowed then none
  else do
    let s ← (s.openBlock s.cursor.column s.tokens.size .blockMapStart).dropKey
    return { s.skip 1 with keyAllowed := !s.inFlow }.emit .key

/-- Reads the colon before a value. -/
def readValue (s : Layout) : Option Layout :=
  match s.keyStart with
  | some k =>
      -- Only now is it known that a key began there; a block of keys may begin with it.
      let keyed := (s.emitAt k.position .key).openBlock k.place.column k.position .blockMapStart
      some ({ keyed.skip 1 with keyStart := none, keyAllowed := false }.emit .value)
  | none =>
      if !s.inFlow && !s.keyAllowed then none
      else
        let opened := s.openBlock s.cursor.column s.tokens.size .blockMapStart
        some ({ opened.skip 1 with keyAllowed := !s.inFlow }.emit .value)

/-- Whether a plain scalar may begin here. -/
def startsPlain (s : Layout) (char : Char) : Bool :=
  !(s.cursor.gapAt 0 || ['-', '?', ':', ',', '[', ']', '\x7b', '\x7d', '#', '&', '*', '!', '|',
      '>', '\x27', '\x22', '%', '@', '\x60'].contains char)
    || (char == '-' && !s.cursor.spacingAt 1)
    || (!s.inFlow && (char == '?' || char == ':') && !s.cursor.gapAt 1)

/-- Reads the token that begins with the given character. -/
def readToken (s : Layout) (char : Char) : Option Layout :=
  let c := s.cursor
  if c.column == 0 && char == '%' then s.readDirective
  else if c.atMarker '-' then s.readMarker .documentStart
  else if c.atMarker '.' then s.readMarker .documentEnd
  else if char == '[' then s.openFlow .flowListStart
  else if char == '\x7b' then s.openFlow .flowMapStart
  else if char == ']' then s.closeFlow .flowListEnd
  else if char == '\x7d' then s.closeFlow .flowMapEnd
  else if char == ',' then s.readFlowItem
  else if char == '-' && c.gapAt 1 then s.readBlockItem
  else if char == '?' && (s.inFlow || c.gapAt 1) then s.readKey
  else if char == ':' && (s.inFlow || c.gapAt 1) then s.readValue
  else if char == '*' then s.readAnchor .aliasName
  else if char == '&' then s.readAnchor .anchor
  else if char == '!' then s.readTag
  else if char == '|' && !s.inFlow then s.readBlockScalar false
  else if char == '>' && !s.inFlow then s.readBlockScalar true
  else if char == '\x27' || char == '\x22' then s.readQuoted char
  else if s.startsPlain char then s.readPlain
  else none

/-- Closes what is open at the end of the document. -/
def finish (s : Layout) : Option (Array Token) := do
  let s ← (s.closeBlocks (-1)).dropKey
  return s.tokens

/-- Reads tokens to the end of the text. Every token takes a character, so a budget of the length
of the text suffices. -/
def run : Nat → Layout → Option (Array Token)
  | 0, _ => none
  | budget + 1, s => do
      let s ← (toNextToken s.budget s).dropStaleKeys
      -- What stands further left than a block is not in it.
      let s := s.closeBlocks s.cursor.column
      match s.cursor.peek? with
      | none => s.finish
      | some char => run budget (← s.readToken char)

end Layout

/-- The tokens of a document, if it is one. -/
def Token.scan? (text : List Char) : Option (List Token) :=
  if text.all isAllowed then
    (Layout.run (text.length + 2)
      { cursor := Cursor.start text, budget := text.length + 1 }).map Array.toList
  else none

end ApiTypes.Yaml
