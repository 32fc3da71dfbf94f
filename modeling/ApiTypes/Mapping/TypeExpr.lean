import ApiTypes.Text.Blank

/-!
# Type expressions

The target of a rule is a qualified name with type arguments between angle brackets, and a pair of
square brackets after it for an array:

    java.util.Map<java.lang.String, byte[]>

Blanks may stand between the tokens. `TypeExpr.parse` reads a text as a type expression and
`TypeExpr.printed` writes one without blanks.
-/

set_option autoImplicit false

namespace ApiTypes

/-- A qualified name with type arguments, or an array of it. -/
structure TypeExpr where
  /-- The qualified name; it may hold the placeholder of the package. -/
  name : String
  /-- Whether square brackets follow. -/
  isArray : Bool
  /-- The type arguments in order. -/
  args : List TypeExpr

namespace TypeExpr

instance : Inhabited TypeExpr := ⟨⟨"", false, []⟩⟩

/-- A name without arguments. -/
def ofName (name : String) : TypeExpr := ⟨name, false, []⟩

/-- The name with the square brackets of an array. -/
def label (t : TypeExpr) : String :=
  if t.isArray then t.name ++ "[]" else t.name

mutual

/-- The type expression without blanks. -/
def printed : TypeExpr → List Char
  | ⟨name, isArray, args⟩ =>
      name.toList ++ (if args.isEmpty then [] else '<' :: printedArgs args)
        ++ (if isArray then ['[', ']'] else [])

/-- Type arguments up to the closing angle bracket. -/
def printedArgs : List TypeExpr → List Char
  | [] => ['>']
  | [arg] => printed arg ++ ['>']
  | arg :: rest => printed arg ++ ',' :: printedArgs rest

end

/-- The characters that a name begins with. -/
def isNameStart (c : Char) : Bool :=
  c.isAlpha || c == '_' || c == '$' || c == '?' || c == '\x7b'

/-- The characters that a name goes on with. -/
def isNamePart (c : Char) : Bool :=
  c.isAlphanum || c == '_' || c == '$' || c == '.' || c == '\x7b' || c == '\x7d' || c == '?'
    || c == '-'

/-- Why a text is no type expression. -/
inductive Fault where
  /-- A name was expected before the rest. -/
  | noName (rest : List Char)
  /-- A comma or a closing bracket was expected before the rest. -/
  | openArgs (rest : List Char)
  /-- The type expression ends before the rest. -/
  | unread (rest : List Char)
  deriving DecidableEq

/-- Reads a name after blanks. -/
def parseName (text : List Char) : Except Fault (List Char × List Char) :=
  match Text.trimStart text with
  | c :: rest =>
      if isNameStart c then .ok (c :: rest.takeWhile isNamePart, rest.dropWhile isNamePart)
      else .error (.noName (c :: rest))
  | [] => .error (.noName [])

/-- Reads the square brackets of an array after blanks, if they come next. -/
def parseBrackets (text : List Char) : Bool × List Char :=
  match Text.trimStart text with
  | '[' :: ']' :: rest => (true, rest)
  | rest => (false, rest)

mutual

/-- Reads a type expression and tells the rest. Every step takes a character, so a budget of the
length of the text suffices. -/
def parsePart : Nat → List Char → Except Fault (TypeExpr × List Char)
  | 0, text => .error (.noName text)
  | budget + 1, text =>
      match parseName text with
      | .error fault => .error fault
      | .ok (name, afterName) =>
          match Text.trimStart afterName with
          | '<' :: rest =>
              match parseArgs budget rest with
              | .error fault => .error fault
              | .ok (args, afterArgs) =>
                  let (isArray, last) := parseBrackets afterArgs
                  .ok (⟨String.ofList name, isArray, args⟩, last)
          | rest =>
              let (isArray, last) := parseBrackets rest
              .ok (⟨String.ofList name, isArray, []⟩, last)

/-- Reads type arguments up to the closing angle bracket and tells the rest. -/
def parseArgs : Nat → List Char → Except Fault (List TypeExpr × List Char)
  | 0, text => .error (.noName text)
  | budget + 1, text =>
      match parsePart budget text with
      | .error fault => .error fault
      | .ok (arg, afterArg) =>
          match Text.trimStart afterArg with
          | ',' :: rest =>
              match parseArgs budget rest with
              | .error fault => .error fault
              | .ok (args, last) => .ok (arg :: args, last)
          | '>' :: rest => .ok ([arg], rest)
          | rest => .error (.openArgs rest)

end

/-- Reads a whole text as a type expression. -/
def parse (text : List Char) : Except Fault TypeExpr :=
  match parsePart (2 * text.length + 2) text with
  | .error fault => .error fault
  | .ok (t, rest) =>
      match Text.trimStart rest with
      | [] => .ok t
      | rest => .error (.unread rest)

end TypeExpr

end ApiTypes
