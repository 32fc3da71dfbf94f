import ApiTypes.Decimal.Layout
import ApiTypes.Model.Annotation
import ApiTypes.Model.Constraints
import ApiTypes.Text.Quoted
import ApiTypes.Validation

/-!
# Annotations for constraints

The constraints of a schema as annotations: its size, its pattern, and its bounds, in this order.
The size is that of a text where the schema restricts the length of texts, and else that of a
list. Patterns and bounds are written as string literals.
-/

set_option autoImplicit false

namespace ApiTypes

namespace Constraints

/-- The bounds of the size: those of texts if there are any, else those of lists. -/
def sizeBounds (c : Constraints) : Option Nat × Option Nat :=
  match c.minLength, c.maxLength with
  | none, none => (c.minItems, c.maxItems)
  | least, greatest => (least, greatest)

/-- The annotation of a size. -/
def annotationOfSize? (package : String) : Option Nat × Option Nat → Option Annotation
  | (none, none) => none
  | (least, greatest) =>
      let a : Annotation := { typeName := package ++ ".Size" }
      let a :=
        match least with
        | some n => a.withArgument "min" (toString n)
        | none => a
      match greatest with
      | some n => some (a.withArgument "max" (toString n))
      | none => some a

/-- The annotation of a pattern. -/
def annotationOfPattern (package pattern : String) : Annotation :=
  Annotation.withArgument { typeName := package ++ ".Pattern" } "regexp" (Text.literal pattern)

/-- The annotation of a bound. -/
def annotationOfBound (package name : String) (exclusive : Bool) (bound : Decimal.Binary64) :
    Annotation :=
  let a := Annotation.withArgument { typeName := package ++ "." ++ name } "value"
    (Text.literal (Decimal.positional bound))
  if exclusive then a.withArgument "inclusive" "false" else a

/-- The annotations for constraints from a package. -/
def annotationsFrom (c : Constraints) (package : String) : List Annotation :=
  (annotationOfSize? package c.sizeBounds).toList
    ++ (c.pattern.map (annotationOfPattern package)).toList
    ++ (c.minimum.map (annotationOfBound package "DecimalMin" c.exclusiveMinimum)).toList
    ++ (c.maximum.map (annotationOfBound package "DecimalMax" c.exclusiveMaximum)).toList

/-- The annotations for constraints in a flavour. -/
def annotations (c : Constraints) (validation : Validation) : List Annotation :=
  match validation.package? with
  | some package => c.annotationsFrom package
  | none => []

end Constraints

end ApiTypes
