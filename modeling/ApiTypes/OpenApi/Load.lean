import ApiTypes.Document.Yaml.Node
import ApiTypes.OpenApi.Version30
import ApiTypes.OpenApi.Version31

/-!
# Loading descriptions

A description is read in the way that its version asks for.
-/

set_option autoImplicit false

namespace ApiTypes.Description

/-- Reads the value of a document in a dialect. -/
def ofValue (dialect : Dialect) (v : Value) : Except DescriptionFault Description :=
  match dialect with
  | .early =>
      match Version30.description? v with
      | some d => .ok d
      | none => .error .badDescription
  | .late => Version31.description v

/-- Reads a text in a dialect. -/
def ofText (dialect : Dialect) (text : String) : Except DescriptionFault Description :=
  match Yaml.read? text with
  | some v => ofValue dialect v
  | none => .error .unreadable

/-- The dialect of a version. -/
def dialect? (version : String) : Option Dialect :=
  match version.toList.take 3 with
  | ['3', '.', '0'] => some .early
  | ['3', '.', '1'] => some .late
  | ['3', '.', '2'] => some .late
  | _ => none

/-- Reads a text in the dialect of its version. -/
def load (text : String) : Except DescriptionFault Description :=
  match Yaml.read? text with
  | none => .error .unreadable
  | some v =>
      match (v.get? "openapi").bind Value.text? with
      | none => .error .noVersion
      | some version =>
          match dialect? version with
          | some dialect => ofValue dialect v
          | none => .error (.unsupportedVersion version)

end ApiTypes.Description
