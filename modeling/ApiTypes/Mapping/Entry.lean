import ApiTypes.Text.Quoted

/-!
# Entries of a mapping document

An entry of a mapping document before its rule is read: either a whole rule on one line, or the
source and the target of a rule as separate texts, with further type arguments of the target.
-/

set_option autoImplicit false

namespace ApiTypes

/-- The lists that rules stand in. -/
inductive Section where
  | types
  | parameters
  | responses
  deriving DecidableEq

/-- The name of a list in a mapping document. -/
def Section.label : Section → String
  | types => "types"
  | parameters => "parameters"
  | responses => "responses"

/-- An entry of a list. -/
structure Entry where
  /-- A rule for schemas on one line. -/
  type : Option String := none
  /-- A rule for the parameter of a name, or that name. -/
  name : Option String := none
  /-- A rule for the responses of a content type, or that content type. -/
  content : Option String := none
  /-- The source of a rule for schemas. -/
  source : Option String := none
  /-- The target that belongs to a separate source, name or content type. -/
  target : Option String := none
  /-- Further type arguments of the target. -/
  generics : List String := []
  deriving DecidableEq

namespace Entry

/-- An optional text as messages show it. -/
def shownOption : Option String → String
  | none => "None"
  | some text => "Some(" ++ Text.shown text ++ ")"

/-- An entry as messages show it. -/
def shown (e : Entry) : String :=
  "RawEntry \x7b type_rule: " ++ shownOption e.type ++ ", name: " ++ shownOption e.name
    ++ ", content: " ++ shownOption e.content ++ ", from: " ++ shownOption e.source
    ++ ", to: " ++ shownOption e.target ++ ", generics: ["
    ++ ", ".intercalate (e.generics.map Text.shown) ++ "] \x7d"

end Entry

end ApiTypes
