import ApiTypes.OpenApi.Description
import ApiTypes.OpenApi.Reading

/-!
# Descriptions of version 3.1

A schema of version 3.1 is a reference, or the first of five shapes that its keywords fit: an
array, which has a type and items; an object, which has a type; or a list of alternatives or
constituents. The shape decides which keywords count, and the others are ignored. A schema that
fits no shape makes the whole description unreadable.
-/

set_option autoImplicit false

namespace ApiTypes.Version31

open Decimal (Binary64)
open Reading

/-- The names of the types. -/
def typeNames : List String :=
  ["object", "string", "integer", "number", "boolean", "array", "null"]

/-- The type of a schema: one of several, or any. -/
inductive SchemaType where
  | one (name : String)
  | several (names : List String)
  | any

/-- Reads the name of a type. -/
def typeName? (v : Value) : Option String := v.text?.filter typeNames.contains

/-- Reads the type of a schema. -/
def schemaType? (r : Reading) : Option SchemaType :=
  match r.value with
  | .str _ => (typeName? r.value).map .one
  | .list _ => (r.value.listOf? typeName?).map .several
  | .null => some .any
  | _ => none

/-- Reads what tells alternatives apart. -/
def discriminator? (r : Reading) : Option Unit := do
  let record ← r.value.members?
  let name ← findValue? "propertyName" record
  if name.text?.isNone then none
  else
    match findValue? "mapping" record with
    | none => some ()
    | some v => (v.mapOf? Value.text?).map fun _ => ()

/-- Reads how a schema is written as XML. -/
def xml? (r : Reading) : Option Unit := do
  let record ← r.value.record? ["name", "namespace", "prefix", "attribute", "wrapped"]
  let _ ← record.optional? "name" Value.text?
  let _ ← record.optional? "namespace" Value.text?
  let _ ← record.optional? "prefix" Value.text?
  let _ ← record.optional? "attribute" Value.bool?
  let _ ← record.optional? "wrapped" Value.bool?
  return ()

/-- Reads the keywords that describe a schema and are not kept. -/
def documented? (members : List (String × Reading)) : Option Unit := do
  let _ ← optional? members "title" text?
  let _ ← optional? members "description" text?
  let _ ← orElse? members "examples" [] values?
  return ()

/-- Reads the keywords for contents that are not kept. -/
def encoded? (members : List (String × Reading)) : Option Unit := do
  let _ ← optional? members "xml" xml?
  let _ ← orElse? members "contentEncoding" "" text?
  let _ ← orElse? members "contentMediaType" "" text?
  return ()

/-- Reads the schema of the items of an array, which may be the boolean that allows none. -/
def items? (r : Reading) : Option (Option Schema) :=
  match r.schema with
  | some schema => some (some schema)
  | none =>
      match r.value with
      | .bool false => some none
      | _ => none

/-- A schema that is an array. -/
def array? (members : List (String × Reading)) : Option Schema := do
  let _ ← required? members "type" schemaType?
  let items ← required? members "items" items?
  let _ ← orElse? members "prefixItems" [] (·.inlineList)
  let _ ← documented? members
  let _ ← encoded? members
  let _ ← orElse? members "uniqueItems" false bool?
  let deprecated ← optional? members "deprecated" bool?
  let maxItems ← optional? members "maxItems" count?
  let minItems ← optional? members "minItems" count?
  return .inline
    { type := some "array", constraints := { minItems, maxItems },
      deprecated := deprecated.getD false }
    [] [] [] [] items .none

/-- Reads what holds for other properties. -/
def additional? (r : Reading) : Option (Additional Schema) :=
  match r.schema with
  | some schema => some (.described schema)
  | none =>
      match r.value with
      | .bool true => some .any
      | .bool false => some .none
      | _ => none

/-- The type by which a schema is resolved: the first one that is not null, or an object if any
type is allowed and there are properties. -/
def resolvedType (t : SchemaType) (hasProperties : Bool) : Option String :=
  match t with
  | .one name => if name == "null" then none else some name
  | .several names => names.find? (· != "null")
  | .any => if hasProperties then some "object" else none

/-- Whether null is one of several types. -/
def isNullable : SchemaType → Bool
  | .several names => names.contains "null"
  | _ => false

/-- The bound of a side and whether it is exclusive: the exclusive one if it is given. -/
def bound (inclusive exclusive : Option Number) : Option Binary64 × Bool :=
  match exclusive with
  | some n => (some n.toBinary, true)
  | none => (inclusive.map Number.toBinary, false)

/-- A schema of any type but with items. -/
def object? (members : List (String × Reading)) : Option Schema := do
  let type ← required? members "type" schemaType?
  let _ ← documented? members
  let _ ← encoded? members
  let format ← optional? members "format" text?
  let default ← optional? members "default" fun r => some r.value
  let enum ← optional? members "enum" values?
  let required ← orElse? members "required" [] texts?
  let properties ← orElse? members "properties" [] (·.map)
  let additional ← optional? members "additionalProperties" additional?
  let _ ← optional? members "propertyNames" (·.inline)
  let deprecated ← optional? members "deprecated" bool?
  let _ ← optional? members "writeOnly" bool?
  let _ ← optional? members "readOnly" bool?
  let _ ← optional? members "multipleOf" number?
  let maximum ← optional? members "maximum" number?
  let minimum ← optional? members "minimum" number?
  let exclusiveMaximum ← optional? members "exclusiveMaximum" number?
  let exclusiveMinimum ← optional? members "exclusiveMinimum" number?
  let maxLength ← optional? members "maxLength" count?
  let minLength ← optional? members "minLength" count?
  let pattern ← optional? members "pattern" text?
  let _ ← optional? members "maxProperties" count?
  let _ ← optional? members "minProperties" count?
  let (lower, lowerIsExclusive) := bound minimum exclusiveMinimum
  let (upper, upperIsExclusive) := bound maximum exclusiveMaximum
  return .inline
    { type := resolvedType type (!properties.isEmpty), format, required,
      enum := enum.getD [], deprecated := deprecated.getD false,
      constraints :=
        { nullable := isNullable type, default, minLength, maxLength, pattern,
          minimum := lower, exclusiveMinimum := lowerIsExclusive,
          maximum := upper, exclusiveMaximum := upperIsExclusive } }
    [] [] [] properties none (additional.getD .none)

/-- A list of schemas under a keyword, with what else belongs to such a schema. -/
def listed? (members : List (String × Reading)) (keyword : String) : Option (List Schema) := do
  let schemas ← required? members keyword (·.list)
  let _ ← orElse? members "type" SchemaType.any schemaType?
  let _ ← documented? members
  let _ ← optional? members "discriminator" discriminator?
  return schemas

/-- A schema with a list of schemas, the keywords being tried one after the other. -/
def composed? (members : List (String × Reading)) : Option Schema :=
  match listed? members "oneOf" with
  | some schemas => some (.inline {} [] schemas [] [] none .none)
  | none =>
      match listed? members "allOf" with
      | some schemas => some (.inline {} schemas [] [] [] none .none)
      | none =>
          (listed? members "anyOf").map fun schemas => .inline {} [] [] schemas [] none .none

/-- The schema that the members of an object make: the first shape that they fit. -/
def inline? (members : List (String × Reading)) : Option Schema :=
  ((array? members).or (object? members)).or (composed? members)

/-- The reference that a value is. -/
def reference? (v : Value) : Option String := do
  let r ← v.record? ["$ref", "description", "summary"]
  let target ← r.required? "$ref" Value.text?
  let _ ← r.orElse? "description" "" Value.text?
  let _ ← r.orElse? "summary" "" Value.text?
  return target

/-- How version 3.1 reads schemas. -/
def rules : SchemaRules where
  reference := reference?
  inline := inline?

/-- Reads a schema or a reference. -/
def schema? (v : Value) : Option Schema := (Reading.of rules v).schema

/-! ## Parts of a description -/

/-- Reads a content. -/
def media? (v : Value) : Option (Option Schema) := do
  let r ← v.record? ["schema"]
  r.optional? "schema" schema?

/-- Reads contents under their types. -/
def contents? (v : Value) : Option (List Media) :=
  (v.mapOf? media?).map fun found => found.map fun (type, schema) => ⟨type, schema⟩

/-- Reads a request body or a response, which may be a reference besides. -/
def body? (v : Value) : Option Body := do
  let r ← v.record? ["$ref", "content"]
  return {
    reference := ← r.optional? "$ref" Value.text?
    contents := ← r.orElse? "content" [] contents? }

/-- Reads a parameter, which may be a reference besides. -/
def parameter? (v : Value) : Option ParameterDecl := do
  let r ← v.record? ["$ref", "name", "in", "required", "schema", "content"]
  return {
    reference := ← r.optional? "$ref" Value.text?
    name := ← r.optional? "name" Value.text?
    location := ← r.optional? "in" Value.text?
    required := ← r.orElse? "required" false Value.bool?
    schema := ← r.optional? "schema" schema?
    contents := ← r.orElse? "content" [] contents? }

/-- Reads an operation. -/
def operation? (v : Value) : Option Operation := do
  let r ← v.record? ["operationId", "deprecated", "parameters", "requestBody", "responses"]
  return {
    operationId := ← r.optional? "operationId" Value.text?
    deprecated := ← r.orElse? "deprecated" false Value.bool?
    parameters := ← r.orElse? "parameters" [] (Value.listOf? parameter?)
    requestBody := ← r.optional? "requestBody" body?
    responses := ← r.orElse? "responses" [] (Value.mapOf? body?) }

/-- Reads a path. -/
def pathItem? (v : Value) : Option PathItem := do
  let r ← v.record? ("parameters" :: Description.methods)
  let parameters ← r.orElse? "parameters" [] (Value.listOf? parameter?)
  let operations ← Description.methods.mapM fun method =>
    (r.optional? method operation?).map fun op => (method, op)
  return {
    parameters
    operations := operations.filterMap fun (method, op) => op.map fun op => (method, op) }

/-- Reads the paths; members that begin with `x-` are extensions. -/
def paths? (v : Value) : Option (List (String × PathItem)) := do
  let members ← v.members?
  (members.filter fun (path, _) => !(['x', '-'].isPrefixOf path.toList)).mapM fun (path, v) =>
    (pathItem? v).map fun item => (path, item)

/-- Reads a response of the components, which must be described unless it is a reference. -/
def sharedResponse? (v : Value) : Option Unit :=
  match reference? v with
  | some _ => some ()
  | none => do
      let members ← v.members?
      let description ← findValue? "description" members
      let _ ← description.text?
      match findValue? "content" members with
      | none => some ()
      | some v => (v.mapOf? media?).map fun _ => ()

/-- Reads the sections of the components. -/
def components? (v : Value) :
    Option (List (String × Schema) × List (String × Body)) := do
  let members ← v.members?
  let section? {α : Type} (name : String) (read : Value → Option α) : Option (List (String × α)) :=
    match findValue? name members with
    | none => some []
    | some v => v.mapOf? read
  let schemas ← section? "schemas" schema?
  -- A shared response is read in two ways: one of them checks it, the other gives its contents.
  let _ ← section? "responses" sharedResponse?
  let _ ← section? "securitySchemes" fun v => v.members?.map fun _ => ()
  let bodies ← section? "responses" body?
  return (schemas, bodies)

/-- Reads a description of version 3.1 or 3.2: first its components, then the rest. -/
def description (v : Value) : Except DescriptionFault Description := do
  let components := (v.get? "components").getD (.object [])
  let some (schemas, responses) := components? components | throw .badComponents
  let some shared := components.record? ["parameters", "requestBodies", "responses"]
    | throw .badComponents
  let some parameters := shared.orElse? "parameters" [] (Value.mapOf? parameter?)
    | throw .badComponents
  let some requestBodies := shared.orElse? "requestBodies" [] (Value.mapOf? body?)
    | throw .badComponents
  let some root := v.record? ["openapi", "paths"] | throw .badPaths
  let some version := root.required? "openapi" Value.text? | throw .badPaths
  let some paths := root.orElse? "paths" [] paths? | throw .badPaths
  return {
    dialect := .late, version, schemas, parameters, requestBodies, responses, paths }

end ApiTypes.Version31
