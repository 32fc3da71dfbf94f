import ApiTypes.Error

/-!
# Validation flavours

Annotations for the constraints of schemas come from one of two packages, or are left out.
-/

set_option autoImplicit false

namespace ApiTypes

/-- Where the annotations for constraints come from. -/
inductive Validation where
  /-- No annotations for constraints. -/
  | disabled
  | javax
  | jakarta
  deriving DecidableEq

namespace Validation

instance : Inhabited Validation := ⟨disabled⟩

/-- The package of the annotations. -/
def package? : Validation → Option String
  | disabled => none
  | javax => some "javax.validation.constraints"
  | jakarta => some "jakarta.validation.constraints"

/-- The name of a flavour. -/
def label : Validation → String
  | disabled => "disabled"
  | javax => "javax"
  | jakarta => "jakarta"

/-- The flavour that a text names. -/
def parse (text : String) : Except MappingFault Validation :=
  if text = "false" ∨ text = "disabled" then .ok disabled
  else if text = "true" ∨ text = "javax" then .ok javax
  else if text = "jakarta" then .ok jakarta
  else .error (.unknownValidation text)

end Validation

end ApiTypes
