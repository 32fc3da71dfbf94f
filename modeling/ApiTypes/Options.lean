import ApiTypes.Mapping.Document

/-!
# Options

The settings of a run. The options in mapping documents override them, later documents those of
earlier ones.
-/

set_option autoImplicit false

namespace ApiTypes

/-- The settings of a run. -/
structure Options where
  /-- The root package of generated types. -/
  packageName : String := "io.generated"
  /-- The annotations for constraints. -/
  validation : Validation := .disabled
  /-- The suffix of the names of generated types. -/
  modelNameSuffix : String := ""
  /-- Whether alternatives become an interface. -/
  oneOfInterface : Bool := false
  /-- The mapping documents; later ones come before earlier ones. -/
  mappings : List Mapping := []

namespace Options

instance : Inhabited Options := ⟨{}⟩

/-- The package of generated types. -/
def modelPackage (o : Options) : String := o.packageName ++ ".model"

/-- Takes over the options that one mapping document sets. -/
def override (o : Options) (m : MappingOptions) : Options :=
  { o with
    packageName := m.packageName.getD o.packageName
    validation := m.validation.getD o.validation
    modelNameSuffix := m.modelNameSuffix.getD o.modelNameSuffix
    oneOfInterface := m.oneOfInterface.getD o.oneOfInterface }

/-- Takes over the options of the mapping documents. -/
def applyMappings (o : Options) : Options :=
  o.mappings.foldl (fun acc m => acc.override m.options) o

end Options

end ApiTypes
