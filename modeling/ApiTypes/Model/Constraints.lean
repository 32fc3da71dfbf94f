import ApiTypes.Document.Value

/-!
# Constraints

The keywords of a schema that restrict its values.
-/

set_option autoImplicit false

namespace ApiTypes

open Decimal (Binary64)

/-- The keywords of a schema that restrict its values. -/
structure Constraints where
  /-- Whether null is a value. -/
  nullable : Bool := false
  /-- The value that is assumed. -/
  default : Option Value := none
  /-- The least length of a text. -/
  minLength : Option Nat := none
  /-- The greatest length of a text. -/
  maxLength : Option Nat := none
  /-- The lower bound of a number. -/
  minimum : Option Binary64 := none
  /-- Whether the lower bound itself is left out. -/
  exclusiveMinimum : Bool := false
  /-- The upper bound of a number. -/
  maximum : Option Binary64 := none
  /-- Whether the upper bound itself is left out. -/
  exclusiveMaximum : Bool := false
  /-- The regular expression of a text. -/
  pattern : Option String := none
  /-- The least number of items. -/
  minItems : Option Nat := none
  /-- The greatest number of items. -/
  maxItems : Option Nat := none

namespace Constraints

instance : Inhabited Constraints := ⟨{}⟩

/-- Whether no keyword is set. -/
def isEmpty (c : Constraints) : Bool :=
  !c.nullable && c.default.isNone && c.minLength.isNone && c.maxLength.isNone
    && c.minimum.isNone && !c.exclusiveMinimum && c.maximum.isNone && !c.exclusiveMaximum
    && c.pattern.isNone && c.minItems.isNone && c.maxItems.isNone

end Constraints

end ApiTypes
