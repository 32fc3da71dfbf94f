import ApiTypes.Error
import ApiTypes.Mapping.TypeExpr
import ApiTypes.Model.Annotation
import ApiTypes.Text.Digit

/-!
# Rules

A rule says what becomes of the schemas, parameters or responses that its source matches: it gives
them a type, or it adds an annotation. On one line a rule is written as

    string:date-time => java.time.ZonedDateTime
    Page => io.Page<java.lang.String>
    string:uuid @ io.Id(kind = io.Kind.class, strict = true)

with an arrow before a type and an at sign before an annotation. The source of a rule for schemas
is a schema type, or the name of a schema, with an optional format.
-/

set_option autoImplicit false

namespace ApiTypes

/-- What a rule does. -/
inductive RuleKind where
  /-- Gives a schema a type. -/
  | type
  /-- Gives the parameter of a name, or the responses of a content type, a type. -/
  | use
  /-- Adds an annotation to a schema. -/
  | annotate
  deriving DecidableEq

/-- What a rule applies to: a schema type, a name or a content type, and a format. -/
structure RuleSource where
  /-- The type, name or content type. -/
  type : String
  /-- The format; none matches every format. -/
  format : Option String := none
  deriving DecidableEq

/-- A rule. -/
structure Rule where
  /-- What the rule does. -/
  kind : RuleKind
  /-- What it applies to. -/
  source : RuleSource
  /-- The qualified name of the target, unless the rule adds an annotation. -/
  target : Option String := none
  /-- Whether the target is an array. -/
  isArray : Bool := false
  /-- The type arguments of the target. -/
  generics : List TypeExpr := []
  /-- The annotation, if the rule adds one. -/
  annotation : Option Annotation := none

namespace Rule

/-- What stands between the source of a rule and the rest. -/
inductive Separator where
  /-- The arrow before a type. -/
  | arrow
  /-- The at sign before an annotation. -/
  | atSign
  deriving DecidableEq

/-- Cuts a rule at its first arrow or at sign. -/
def split? : List Char → Option (List Char × Separator × List Char)
  | [] => none
  | '=' :: '>' :: rest => some ([], .arrow, rest)
  | '@' :: rest => some ([], .atSign, rest)
  | c :: rest => (split? rest).map fun (source, separator, body) => (c :: source, separator, body)

/-- The source of a rule for schemas: a type, and a format after a colon. -/
def source? (text : List Char) : Option RuleSource :=
  let trimmed := Text.trim text
  let inType (c : Char) : Bool := !Text.isBlank c && c != ':'
  let type := trimmed.takeWhile inType
  let rest := Text.trimStart (trimmed.dropWhile inType)
  if type.isEmpty then none
  else
    match rest with
    | [] => some ⟨String.ofList type, none⟩
    | c :: more =>
        let format := Text.trimStart more
        if c == ':' && !format.isEmpty && format.all (fun d => !Text.isBlank d) then
          some ⟨String.ofList type, some (String.ofList format)⟩
        else none

/-- The names of the types that are no classes. -/
def primitiveNames : List String :=
  ["byte", "short", "int", "long", "float", "double", "boolean", "char"]

/-- Whether the target of a rule is a type that is no class. -/
def isPrimitive (rule : Rule) : Bool :=
  rule.target.any primitiveNames.contains

/-- Reads a text as a type expression; `text` is what the messages quote. -/
def readTarget (text : String) : Except RuleFault TypeExpr :=
  match TypeExpr.parse text.toList with
  | .ok t => .ok t
  | .error (.noName rest) => .error (.noTypeName (String.ofList rest))
  | .error (.openArgs rest) => .error (.openTypeArguments (String.ofList rest))
  | .error (.unread rest) => .error (.unreadTarget (String.ofList rest) text)

/-- Gives a rule its target. -/
def withTarget (rule : Rule) (body : List Char) (text : String) : Except RuleFault Rule :=
  match TypeExpr.parse body with
  | .ok t => .ok { rule with target := some t.name, isArray := t.isArray, generics := t.args }
  | .error _ => .error (.badTarget text)

/-- Adds type arguments to the target of a rule. The square brackets of an argument do not
count. -/
def addGenerics (rule : Rule) : List String → Except RuleFault Rule
  | [] => .ok rule
  | text :: rest =>
      match readTarget text with
      | .error fault => .error fault
      | .ok t =>
          addGenerics { rule with generics := rule.generics ++ [{ t with isArray := false }] } rest

/-! ## Annotations -/

/-- The characters that the name of an annotation or a class begins with. -/
def isClassStart (c : Char) : Bool :=
  c.isAlpha || c == '_' || c == '$'

/-- The characters that the name of an annotation or a class goes on with. -/
def isClassPart (c : Char) : Bool :=
  c.isAlphanum || c == '_' || c == '$' || c == '.'

/-- Whether a text is the name of an annotation or a class. -/
def isClassName : List Char → Bool
  | [] => false
  | c :: rest => isClassStart c && rest.all isClassPart

/-- Whether a text, read from after its opening quote, is a string up to its end. -/
def isStringRest : List Char → Bool
  | [] => false
  | ['\x22'] => true
  | '\x22' :: _ => false
  | '\x5c' :: c :: rest => c != '\n' && isStringRest rest
  | _ :: rest => isStringRest rest

/-- Whether a text is a string between double quotes, with a backslash before inner quotes. -/
def isString : List Char → Bool
  | '\x22' :: rest => isStringRest rest
  | _ => false

/-- Whether a text is one or more digits. -/
def isDigits (text : List Char) : Bool :=
  !text.isEmpty && text.all Text.isDecimalDigit

/-- Whether a text is a number, with an optional minus sign and an optional fraction. -/
def isNumber (text : List Char) : Bool :=
  let unsigned :=
    match text with
    | '-' :: rest => rest
    | rest => rest
  let whole := unsigned.takeWhile Text.isDecimalDigit
  match unsigned.dropWhile Text.isDecimalDigit with
  | [] => !whole.isEmpty
  | c :: fraction => !whole.isEmpty && c == '.' && isDigits fraction

/-- The name of a class before the word `class`, if a text is a class literal. -/
def className? (text : List Char) : Option (List Char) :=
  let suffix := ".class".toList
  let name := text.take (text.length - suffix.length)
  if text == name ++ suffix && isClassName name then some name else none

/-- The argument that a literal stands for. A class literal keeps the last part of the name and
needs the whole. -/
def argument? (value : List Char) : Option Argument :=
  let text := String.ofList value
  if isString value || isNumber value || text == "true" || text == "false" then some ⟨text, none⟩
  else
    match className? value with
    | some name =>
        some ⟨String.ofList ((splitQualified name).2 ++ ".class".toList),
          some (String.ofList name)⟩
    | none => none

/-- Where a reader of arguments is: outside of strings, in one, or after a backslash in one. -/
inductive StringState where
  | outside
  | inside
  | escaped
  deriving DecidableEq

/-- The state after one more character. -/
def StringState.after (s : StringState) (c : Char) : StringState :=
  match s with
  | escaped => inside
  | inside => if c == '\x5c' then escaped else if c == '\x22' then outside else inside
  | outside => if c == '\x22' then inside else outside

/-- Cuts arguments at the commas outside of strings. -/
def splitArguments (s : StringState) : List Char → List (List Char)
  | [] => [[]]
  | c :: rest =>
      if c == ',' && s == .outside then [] :: splitArguments .outside rest
      else
        match splitArguments (s.after c) rest with
        | [] => [[c]]
        | part :: parts => (c :: part) :: parts

/-- Cuts an argument at its first equals sign, if no quote comes before it. -/
def splitAssignment? : List Char → Option (List Char × List Char)
  | [] => none
  | '=' :: rest => some ([], rest)
  -- An equals sign after a quote belongs to a string.
  | '\x22' :: _ => none
  | c :: rest => (splitAssignment? rest).map fun (name, value) => (c :: name, value)

/-- The name and the literal of one of `count` arguments; an argument that is the only one is
called `value` where it has no name. -/
def namedArgument? (count : Nat) (part : List Char) : Option (List Char × List Char) :=
  match splitAssignment? part with
  | some (name, value) => some (Text.trim name, Text.trim value)
  | none => if count = 1 then some ("value".toList, Text.trim part) else none

/-- Reads arguments one by one. -/
def readArguments (text : String) (count : Nat) (acc : OrderedMap Argument) :
    List (List Char) → Except RuleFault (OrderedMap Argument)
  | [] => .ok acc
  | part :: rest =>
      match namedArgument? count part with
      | none => .error (.unnamedArgument text)
      | some (name, value) =>
          match argument? value with
          | none => .error (.badArgument (String.ofList value) text)
          | some argument =>
              readArguments text count (acc.insert (String.ofList name) argument) rest

/-- The name of an annotation and the text between its parentheses. -/
def splitAnnotation? (body : List Char) : Option (List Char × List Char) :=
  let trimmed := Text.trim body
  let name := trimmed.takeWhile isClassPart
  if !isClassName name then none
  else
    match Text.trimStart (trimmed.dropWhile isClassPart) with
    | [] => some (name, [])
    | '(' :: rest =>
        let inner := rest.dropLast
        if rest.getLast? == some ')' && !inner.contains '\n' then some (name, Text.trim inner)
        else none
    | _ => none

/-- Reads an annotation; `text` is what the messages quote. -/
def readAnnotation (body : List Char) (text : String) : Except RuleFault Annotation :=
  match splitAnnotation? body with
  | none => .error (.badAnnotationText text)
  | some (name, inner) =>
      if inner.isEmpty then .ok ⟨String.ofList name, .empty⟩
      else
        let parts := splitArguments .outside inner
        match readArguments text parts.length .empty parts with
        | .error fault => .error fault
        | .ok arguments => .ok ⟨String.ofList name, arguments⟩

/-! ## Whole rules -/

/-- Reads a rule for schemas on one line. -/
def parseType (text : String) : Except RuleFault Rule :=
  match split? text.toList with
  | none => .error (.noSeparator text)
  | some (source, separator, body) =>
      match source? source with
      | none => .error (.badSource text)
      | some source =>
          match separator with
          | .arrow => withTarget { kind := .type, source } body text
          | .atSign =>
              match readAnnotation body text with
              | .error fault => .error fault
              | .ok annotation => .ok { kind := .annotate, source, annotation := some annotation }

/-- Reads a rule for a parameter name or a content type on one line. -/
def parseUse (text : String) : Except RuleFault Rule :=
  match split? text.toList with
  | none => .error (.noSeparator text)
  | some (source, separator, body) =>
      match separator with
      | .atSign => .error (.annotationForUse text)
      | .arrow =>
          let name := Text.trim source
          if name.isEmpty then .error (.noSource text)
          else withTarget { kind := .use, source := ⟨String.ofList name, none⟩ } body text

/-- A rule for schemas from a source and a target. -/
def typeOfParts (source target : String) : Except RuleFault Rule :=
  match source? source.toList with
  | none => .error (.badSource source)
  | some found => withTarget { kind := .type, source := found } target.toList target

/-- A rule for a parameter name or a content type from the name and a target. -/
def useOfParts (source target : String) : Except RuleFault Rule :=
  withTarget { kind := .use, source := ⟨Text.trimmed source, none⟩ } target.toList target

end Rule

end ApiTypes
