import ApiTypes.Mapping.Entry

/-!
# Errors

Everything that can go wrong, as causes. A fault lies in the text of a rule, in a mapping
document, or in an API description; the other errors arise while the types of a description are
resolved, and tell the pointer of the node at which they arose. `Error.message` is the wording.
-/

set_option autoImplicit false

namespace ApiTypes

/-- What is wrong with the text of a rule. -/
inductive RuleFault where
  /-- No arrow and no at sign. -/
  | noSeparator (text : String)
  /-- An at sign in a rule that is not for schemas. -/
  | annotationForUse (text : String)
  /-- Nothing before the arrow. -/
  | noSource (text : String)
  /-- The source is no type with an optional format. -/
  | badSource (text : String)
  /-- The target is no type expression. -/
  | badTarget (text : String)
  /-- A type expression lacks a name before the rest. -/
  | noTypeName (rest : String)
  /-- Type arguments lack a comma or a closing bracket before the rest. -/
  | openTypeArguments (rest : String)
  /-- A type expression ends before the rest. -/
  | unreadTarget (rest text : String)
  /-- What follows the at sign is no annotation. -/
  | badAnnotationText (text : String)
  /-- One of several arguments has no name. -/
  | unnamedArgument (text : String)
  /-- The value of an argument is no literal. -/
  | badArgument (value text : String)
  deriving DecidableEq

/-- The wording of a fault in a rule. -/
def RuleFault.message : RuleFault → String
  | noSeparator text => "expected '=>' or '@' in mapping '" ++ text ++ "'"
  | annotationForUse text => "annotation rules are only supported for types: '" ++ text ++ "'"
  | noSource text => "missing source in '" ++ text ++ "'"
  | badSource text => "invalid source in '" ++ text ++ "'"
  | badTarget text => "invalid target type in '" ++ text ++ "'"
  | noTypeName rest => "expected a type at '" ++ rest ++ "'"
  | openTypeArguments rest => "expected ',' or '>' at '" ++ rest ++ "'"
  | unreadTarget rest text => "unexpected '" ++ rest ++ "' in target '" ++ text ++ "'"
  | badAnnotationText text => "invalid annotation in '" ++ text ++ "'"
  | unnamedArgument text => "annotation parameter without a name in '" ++ text ++ "'"
  | badArgument value text =>
      "invalid annotation parameter value '" ++ value ++ "' in '" ++ text ++ "'"

/-- What is wrong with a mapping document. -/
inductive MappingFault where
  /-- A rule in it cannot be read. -/
  | rule (fault : RuleFault)
  /-- The text is no document. -/
  | unreadable
  /-- The document is no object. -/
  | notAnObject
  /-- The version is not given under any of its names. -/
  | noVersion (name : String)
  /-- The version is of no known generation. -/
  | unknownVersion (version : String)
  /-- Something in the document has the wrong shape. -/
  | badShape
  /-- An entry has no rule for the list that it stands in. -/
  | unsupportedEntry (place : Section) (entry : Entry)
  /-- The value of the validation option is neither boolean nor text. -/
  | badValidation (value : String)
  /-- The text of the validation option is not known. -/
  | unknownValidation (text : String)
  deriving DecidableEq

/-- The wording of a fault in a mapping document. -/
def MappingFault.message : MappingFault → String
  | rule fault => fault.message
  | unreadable => "Failed to parse mapping YAML"
  | notAnObject => "mapping document is not a map"
  | noVersion name => "missing version key '" ++ name ++ "'"
  | unknownVersion version => "unrecognized mapping version '" ++ version ++ "'"
  | badShape => "invalid mapping document"
  | unsupportedEntry place entry =>
      "unsupported entry in '" ++ place.label ++ "': " ++ entry.shown
  | badValidation value => "invalid bean-validation value '" ++ value ++ "'"
  | unknownValidation text =>
      "unknown bean-validation value '" ++ text ++ "' (expected true, false, javax or jakarta)"

/-- What is wrong with an API description. -/
inductive DescriptionFault where
  /-- The text is no document. -/
  | unreadable
  /-- The version is missing. -/
  | noVersion
  /-- The version is not supported. -/
  | unsupportedVersion (version : String)
  /-- A description of version 3.0 has the wrong shape. -/
  | badDescription
  /-- The components of a description of a later version have the wrong shape. -/
  | badComponents
  /-- The rest of a description of a later version has the wrong shape. -/
  | badPaths
  /-- A parameter has neither a schema nor a content with one. -/
  | parameterWithoutSchema (name location : String)
  /-- A parameter has no name, or is nowhere in the request. -/
  | parameterWithoutName (location : String)
  deriving DecidableEq

/-- The wording of a fault in an API description. -/
def DescriptionFault.message : DescriptionFault → String
  | unreadable => "Failed to parse YAML container"
  | noVersion => "Missing 'openapi' version field"
  | unsupportedVersion version => "Unsupported OpenAPI version '" ++ version ++ "'"
  | badDescription => "Failed to parse OpenAPI 3.0 document"
  | badComponents => "Failed to parse OpenAPI components"
  | badPaths => "Failed to parse OpenAPI Shim"
  | parameterWithoutSchema name location =>
      "Parameter '" ++ name ++ "' at " ++ location ++ " has no schema"
  | parameterWithoutName location => "Parameter at " ++ location ++ " has no name or location"

/-- An error of a run. -/
inductive Error where
  /-- A mapping document cannot be used. -/
  | mapping (fault : MappingFault)
  /-- The API description cannot be used. -/
  | description (fault : DescriptionFault)
  /-- A reference leads nowhere. -/
  | unresolvableReference (reference location : String)
  /-- A schema has no type that is known, and no rule matches it. -/
  | unknownSchemaType (schemaType location : String)
  /-- A schema of an array has no schema for its items. -/
  | invalidItem (location : String)
  /-- A schema contains itself with no object in between. -/
  | cyclicReference (location : String)
  /-- A rule that gives a type has no target. -/
  | noTarget (source : String)
  /-- The walk over the schemas went deeper than there are schemas; no walk does. -/
  | tooDeep (location : String)
  deriving DecidableEq

namespace Error

/-- The wording of an error. -/
def message : Error → String
  | mapping fault => "Mapping Format Error: " ++ fault.message
  | description fault => "Parse Error: " ++ fault.message
  | unresolvableReference reference location =>
      "Unresolvable reference '" ++ reference ++ "' at " ++ location
  | unknownSchemaType schemaType location =>
      "Unknown schema type '" ++ schemaType ++ "' at " ++ location
  | invalidItem location => "Missing or invalid item schema at " ++ location
  | cyclicReference location =>
      "Cyclic reference without an object in between at " ++ location
  | noTarget source => "General Error: mapping rule for '" ++ source ++ "' has no target type"
  | tooDeep location => "General Error: schemas nested too deep at " ++ location

/-- The pointer of the node at which an error arose. -/
def location? : Error → Option String
  | unresolvableReference _ location => some location
  | unknownSchemaType _ location => some location
  | invalidItem location => some location
  | cyclicReference location => some location
  | _ => none

end Error

end ApiTypes
