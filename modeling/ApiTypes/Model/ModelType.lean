import ApiTypes.Model.Constraints
import ApiTypes.Model.Primitive

/-!
# Resolved types

What a schema becomes. A resolved type refers to other types by their numbers, so that a type may
contain itself.
-/

set_option autoImplicit false

namespace ApiTypes

/-- The number of a type in its store. -/
abbrev TypeId := Nat

/-- The name of a schema and the name of the type that is generated for it. -/
structure TypeName where
  /-- The name in the API description. -/
  schema : String
  /-- The name of the generated type. -/
  generated : String
  deriving DecidableEq

/-- A resolved type. -/
inductive ModelType where
  /-- A built-in type. -/
  | primitive (kind : Primitive) (constraints : Constraints) (deprecated : Bool)
  /-- An array of items. -/
  | array (item : TypeId) (constraints : Constraints) (deprecated : Bool)
  /-- A map from texts to values. -/
  | map (item : TypeId) (constraints : Constraints) (deprecated : Bool)
  /-- A generated type with properties. -/
  | object (name : TypeName) (package : String) (properties : OrderedMap TypeId)
      (required : List String) (constraints : Constraints) (deprecated : Bool)
  /-- A generated type with the properties of its constituents. -/
  | allOf (name : TypeName) (package : String) (items : List TypeId) (deprecated : Bool)
  /-- One of several types: an interface, or any object. -/
  | oneOf (name : TypeName) (package : String) (items : List TypeId) (isInterface : Bool)
      (deprecated : Bool)
  /-- A generated enumeration of texts. -/
  | enum (name : TypeName) (package : String) (values : List String)
      (constraints : Constraints) (deprecated : Bool)
  /-- A type that a rule gives. -/
  | mapped (name : String) (package : String) (generics : List TypeId) (isArray : Bool)
      (constraints : Constraints) (deprecated : Bool)

namespace ModelType

/-- The kind of a type. -/
def kind : ModelType → String
  | primitive .. => "primitive"
  | array .. => "array"
  | map .. => "map"
  | object .. => "object"
  | allOf .. => "all-of"
  | oneOf .. => "polymorphic"
  | enum .. => "enum"
  | mapped .. => "mapped"

/-- Whether the schema is deprecated. -/
def deprecated : ModelType → Bool
  | primitive _ _ d => d
  | array _ _ d => d
  | map _ _ d => d
  | object _ _ _ _ _ d => d
  | allOf _ _ _ d => d
  | oneOf _ _ _ _ d => d
  | enum _ _ _ _ d => d
  | mapped _ _ _ _ _ d => d

/-- The constraints of the schema, for the kinds that keep them. -/
def constraints? : ModelType → Option Constraints
  | primitive _ c _ => some c
  | array _ c _ => some c
  | map _ c _ => some c
  | object _ _ _ _ c _ => some c
  | allOf .. => none
  | oneOf .. => none
  | enum _ _ _ c _ => some c
  | mapped _ _ _ _ c _ => some c

/-- The types that are written as parts of the type: items and type arguments. -/
def parts : ModelType → List TypeId
  | array item _ _ => [item]
  | map item _ _ => [item]
  | mapped _ _ generics _ _ _ => generics
  | _ => []

/-- The constituents of a composed type. -/
def constituents : ModelType → List TypeId
  | allOf _ _ items _ => items
  | _ => []

/-- All types that a type refers to. -/
def references : ModelType → List TypeId
  | object _ _ properties _ _ _ => properties.values
  | allOf _ _ items _ => items
  | oneOf _ _ items _ _ => items
  | t => t.parts

end ModelType

end ApiTypes
