import ApiTypes.OrderedMap

/-!
# Annotations

An annotation is a qualified type with named arguments in the order in which they are written.
Two annotations are the same when they have the same type and the same arguments in whatever
order. An argument that is called `value` and is the only one is rendered without its name.
-/

set_option autoImplicit false

namespace ApiTypes

/-- The text before the last point of a qualified name and the text after it; nothing before it
where there is no point. -/
def splitQualified (name : List Char) : List Char × List Char :=
  let last := (name.reverse.takeWhile (· != '.')).reverse
  (name.take (name.length - last.length - 1), last)

/-- The part of a qualified name after its last point. -/
def simpleName (name : String) : String :=
  String.ofList (splitQualified name.toList).2

/-- The part of a qualified name before its last point, empty where there is none. -/
def packageOf (name : String) : String :=
  String.ofList (splitQualified name.toList).1

/-- An argument of an annotation. -/
structure Argument where
  /-- The literal as it is written. -/
  value : String
  /-- The qualified name that the literal needs. -/
  importName : Option String := none
  deriving DecidableEq

/-- An annotation. -/
structure Annotation where
  /-- The qualified type. -/
  typeName : String
  /-- The arguments by name. -/
  arguments : OrderedMap Argument := .empty
  deriving DecidableEq

namespace Annotation

/-- Adds an argument. -/
def withArgument (a : Annotation) (name value : String) : Annotation :=
  { a with arguments := a.arguments.insert name { value } }

/-- Whether two annotations have the same type and the same arguments. -/
def same (a b : Annotation) : Bool :=
  a.typeName == b.typeName && a.arguments.same b.arguments

/-- The type without its package. -/
def name (a : Annotation) : String :=
  simpleName a.typeName

/-- The qualified names that the annotation needs: its own type, if it is qualified, and those of
its arguments. -/
def imports (a : Annotation) : List String :=
  (if a.typeName.toList.contains '.' then [a.typeName] else [])
    ++ a.arguments.values.filterMap (·.importName)

/-- One argument as it is written. -/
def renderArgument (alone : Bool) (argument : String × Argument) : String :=
  if alone && argument.1 == "value" then argument.2.value
  else argument.1 ++ " = " ++ argument.2.value

/-- The annotation as it is written before a declaration. -/
def render (a : Annotation) : String :=
  let alone := a.arguments.size == 1
  if a.arguments.isEmpty then "@" ++ a.name
  else
    "@" ++ a.name ++ "("
      ++ ", ".intercalate (a.arguments.entries.map (renderArgument alone)) ++ ")"

end Annotation

end ApiTypes
