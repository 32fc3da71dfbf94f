/-!
# Built-in types

The types that schemas have without any rule, by their type and format. A format that is not known
counts as none.
-/

set_option autoImplicit false

namespace ApiTypes

/-- A built-in type. -/
inductive Primitive where
  | string
  | integer
  | long
  | float
  | double
  | boolean
  | localDate
  | offsetDateTime
  | object
  deriving DecidableEq

namespace Primitive

instance : Inhabited Primitive := ⟨object⟩

/-- The built-in type of a schema type and format, if the schema type has one. -/
def ofSchema? (type : String) (format : Option String) : Option Primitive :=
  match type with
  | "string" =>
      some (if format = some "date" then localDate
        else if format = some "date-time" then offsetDateTime
        else string)
  | "integer" => some (if format = some "int64" then long else integer)
  | "number" => some (if format = some "double" then double else float)
  | "boolean" => some boolean
  | "object" => some object
  | _ => none

/-- The name without package. -/
def name : Primitive → String
  | string => "String"
  | integer => "Integer"
  | long => "Long"
  | float => "Float"
  | double => "Double"
  | boolean => "Boolean"
  | localDate => "LocalDate"
  | offsetDateTime => "OffsetDateTime"
  | object => "Object"

/-- The package. -/
def package : Primitive → String
  | localDate => "java.time"
  | offsetDateTime => "java.time"
  | _ => "java.lang"

/-- The name with package. -/
def qualifiedName (p : Primitive) : String := p.package ++ "." ++ p.name

/-- The built-in types. -/
def all : List Primitive :=
  [string, integer, long, float, double, boolean, localDate, offsetDateTime, object]

/-- The built-in type of a name. -/
def ofName? (name : String) : Option Primitive := all.find? fun p => p.name == name

end Primitive

end ApiTypes
