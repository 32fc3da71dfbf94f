import ApiTypes.OpenApi.Description
import ApiTypes.OpenApi.Reading

/-!
# Descriptions of version 3.0

A schema of version 3.0 is typed if it has one of the six types and no keyword that is foreign to
the type, and if the values of its enumeration have the type or are null. A schema without type
whose only keyword is one list of schemas is that list. Every other schema may be anything: it
keeps its type, its format and all schemas below it, but of the restrictions only whether it is
nullable and its default.
-/

set_option autoImplicit false

universe u

namespace ApiTypes.Version30

open Reading

/-- The type of a typed schema. -/
inductive SchemaType where
  | string
  | number
  | integer
  | boolean
  | object
  | array
  deriving DecidableEq

namespace SchemaType

/-- The type of a name. -/
def ofName? (name : String) : Option SchemaType :=
  match name with
  | "string" => some string
  | "number" => some number
  | "integer" => some integer
  | "boolean" => some boolean
  | "object" => some object
  | "array" => some array
  | _ => none

/-- The keywords that belong to a type. -/
def keywords : SchemaType → List String
  | string => ["format", "pattern", "enum", "minLength", "maxLength"]
  | number => ["format", "multipleOf", "exclusiveMinimum", "exclusiveMaximum", "minimum",
      "maximum", "enum"]
  | integer => ["format", "multipleOf", "exclusiveMinimum", "exclusiveMaximum", "minimum",
      "maximum", "enum"]
  | boolean => ["enum"]
  | object => ["properties", "required", "additionalProperties", "minProperties",
      "maxProperties"]
  | array => ["items", "minItems", "maxItems", "uniqueItems"]

/-- Whether a value of an enumeration has a type. -/
def admits (t : SchemaType) (v : Value) : Bool :=
  match t, v with
  | _, .null => true
  | string, .str _ => true
  | number, .num _ => true
  | integer, .num (.int n) => -9223372036854775808 ≤ n && n ≤ 9223372036854775807
  | boolean, .bool _ => true
  | _, _ => false

/-- Whether a bound has a type; those of integers are integers of 64 bits. -/
def admitsBound (t : SchemaType) (bound : Option Number) : Bool :=
  match t, bound with
  | integer, some n => t.admits (.num n)
  | _, _ => true

end SchemaType

/-- The keywords that decide of what kind a schema is, apart from its type. -/
def kindKeywords : List String :=
  ["pattern", "multipleOf", "exclusiveMinimum", "exclusiveMaximum", "minimum", "maximum",
    "properties", "required", "additionalProperties", "minProperties", "maxProperties", "items",
    "minItems", "maxItems", "uniqueItems", "enum", "format", "minLength", "maxLength", "oneOf",
    "allOf", "anyOf", "not"]

/-- What a schema says besides its kind. -/
structure Annotations where
  /-- Whether null is a value. -/
  nullable : Bool
  /-- Whether the schema is deprecated. -/
  deprecated : Bool
  /-- The value that is assumed. -/
  default : Option Value

/-- Reads the documentation of a schema elsewhere. -/
def documentation? (r : Reading) : Option Unit := do
  let record ← r.value.members?
  let url ← findValue? "url" record
  if url.text?.isNone then none
  else
    match findValue? "description" record with
    | none => some ()
    | some .null => some ()
    | some v => v.text?.map fun _ => ()

/-- Reads what tells alternatives apart. -/
def discriminator? (r : Reading) : Option Unit := do
  let record ← r.value.members?
  let name ← findValue? "propertyName" record
  if name.text?.isNone then none
  else
    match findValue? "mapping" record with
    | none => some ()
    | some v => (v.mapOf? Value.text?).map fun _ => ()

/-- Reads what a schema says besides its kind. -/
def annotations? (members : List (String × Reading)) : Option Annotations := do
  let nullable ← orElse? members "nullable" false bool?
  let _ ← orElse? members "readOnly" false bool?
  let _ ← orElse? members "writeOnly" false bool?
  let deprecated ← orElse? members "deprecated" false bool?
  let _ ← optional? members "externalDocs" documentation?
  let _ ← optional? members "title" text?
  let _ ← optional? members "description" text?
  let _ ← optional? members "discriminator" discriminator?
  let default ← optional? members "default" fun r => some r.value
  return { nullable, deprecated, default }

/-- The keywords of a schema, whatever its kind. -/
structure RawSchema where
  /-- The type. -/
  type : Option String
  /-- The format. -/
  format : Option String
  /-- The regular expression of a text. -/
  pattern : Option String
  /-- What numbers are multiples of. -/
  multipleOf : Option Number
  /-- The lower bound. -/
  minimum : Option Number
  /-- Whether the lower bound is left out. -/
  exclusiveMinimum : Option Bool
  /-- The upper bound. -/
  maximum : Option Number
  /-- Whether the upper bound is left out. -/
  exclusiveMaximum : Option Bool
  /-- The least length of a text. -/
  minLength : Option Nat
  /-- The greatest length of a text. -/
  maxLength : Option Nat
  /-- The least number of items. -/
  minItems : Option Nat
  /-- The greatest number of items. -/
  maxItems : Option Nat
  /-- The schemas of the properties. -/
  properties : Option (List (String × Schema))
  /-- The required properties. -/
  required : Option (List String)
  /-- What holds for other properties. -/
  additional : Option (Additional Schema)
  /-- The schema of the items. -/
  items : Option Schema
  /-- The values of an enumeration. -/
  enum : Option (List Value)
  /-- The constituents. -/
  allOf : Option (List Schema)
  /-- The alternatives of which exactly one holds. -/
  oneOf : Option (List Schema)
  /-- The alternatives of which some hold. -/
  anyOf : Option (List Schema)

/-- Reads what holds for other properties. -/
def additional? (r : Reading) : Option (Additional Schema) :=
  match r.value with
  | .bool true => some .any
  | .bool false => some .none
  | _ => r.schema.map .described

/-- Reads the keywords of a schema. -/
def rawSchema? (members : List (String × Reading)) : Option RawSchema := do
  let _ ← optional? members "minProperties" count?
  let _ ← optional? members "maxProperties" count?
  let _ ← optional? members "uniqueItems" bool?
  let _ ← optional? members "not" (·.schema)
  return {
    type := ← optional? members "type" text?
    format := ← optional? members "format" text?
    pattern := ← optional? members "pattern" text?
    multipleOf := ← optional? members "multipleOf" number?
    minimum := ← optional? members "minimum" number?
    exclusiveMinimum := ← optional? members "exclusiveMinimum" bool?
    maximum := ← optional? members "maximum" number?
    exclusiveMaximum := ← optional? members "exclusiveMaximum" bool?
    minLength := ← optional? members "minLength" count?
    maxLength := ← optional? members "maxLength" count?
    minItems := ← optional? members "minItems" count?
    maxItems := ← optional? members "maxItems" count?
    properties := ← optional? members "properties" (·.map)
    required := ← optional? members "required" texts?
    additional := ← optional? members "additionalProperties" additional?
    items := ← optional? members "items" (·.schema)
    enum := ← optional? members "enum" values?
    allOf := ← optional? members "allOf" (·.list)
    oneOf := ← optional? members "oneOf" (·.list)
    anyOf := ← optional? members "anyOf" (·.list) }

/-- The kind of a schema. -/
inductive Kind where
  /-- Typed. -/
  | typed (t : SchemaType)
  /-- A list of schemas, or the negation of one, alone. -/
  | lone (keyword : String)
  /-- Anything. -/
  | any

/-- The kind of a schema, from its keywords that are not null. -/
def kindOf (present : List String) (raw : RawSchema) : Kind :=
  match raw.type with
  | none =>
      match present with
      | [keyword] => if ["oneOf", "allOf", "anyOf", "not"].contains keyword then .lone keyword
          else .any
      | _ => .any
  | some name =>
      match SchemaType.ofName? name with
      | none => .any
      | some t =>
          -- A single keyword that the type does not have makes the schema anything.
          if present.all t.keywords.contains && (raw.enum.getD []).all t.admits
              && t.admitsBound raw.minimum && t.admitsBound raw.maximum
              && t.admitsBound raw.multipleOf then .typed t
          else .any

/-- The restrictions of a typed schema. -/
def typedConstraints (t : SchemaType) (base : Constraints) (raw : RawSchema) : Constraints :=
  let bounded : Constraints :=
    { base with
      minimum := raw.minimum.map Number.toBinary
      exclusiveMinimum := raw.exclusiveMinimum.getD false
      maximum := raw.maximum.map Number.toBinary
      exclusiveMaximum := raw.exclusiveMaximum.getD false }
  match t with
  | .string =>
      { base with minLength := raw.minLength, maxLength := raw.maxLength, pattern := raw.pattern }
  | .integer => bounded
  | .number => bounded
  | .array => { base with minItems := raw.minItems, maxItems := raw.maxItems }
  | .boolean => base
  | .object => base

/-- A value of an enumeration of numbers. -/
def realValue : Value → Value
  | .num n => .num (.real n.toBinary)
  | v => v

/-- A typed schema. -/
def typed (t : SchemaType) (name : String) (deprecated : Bool) (base : Constraints)
    (raw : RawSchema) : Schema :=
  let enum := raw.enum.getD []
  let keywords : Keywords :=
    { type := some name, constraints := typedConstraints t base raw, deprecated }
  match t with
  | .string => .inline { keywords with format := raw.format, enum } [] [] [] [] none .none
  | .integer => .inline { keywords with format := raw.format, enum } [] [] [] [] none .none
  | .number =>
      .inline { keywords with format := raw.format, enum := enum.map realValue }
        [] [] [] [] none .none
  | .boolean => .inline keywords [] [] [] [] none .none
  | .object =>
      .inline { keywords with required := raw.required.getD [] } [] [] []
        (raw.properties.getD []) none (raw.additional.getD .none)
  | .array => .inline keywords [] [] [] [] raw.items .none

/-- The type of a schema that may be anything: the one it names, or the one that its keywords
suggest. -/
def suggestedType (raw : RawSchema) : Option String :=
  match raw.type with
  | some name => some name
  | none =>
      if !(raw.properties.getD []).isEmpty then some "object"
      else if raw.items.isSome then some "array"
      else none

/-- A schema of a kind. -/
def schemaOf (kind : Kind) (a : Annotations) (raw : RawSchema) : Schema :=
  let base : Constraints := { nullable := a.nullable, default := a.default }
  match kind with
  | .typed t => typed t (raw.type.getD "") a.deprecated base raw
  | .lone _ =>
      .inline { constraints := base, deprecated := a.deprecated } (raw.allOf.getD [])
        (raw.oneOf.getD []) (raw.anyOf.getD []) [] none .none
  | .any =>
      .inline
        { type := suggestedType raw, format := raw.format, required := raw.required.getD [],
          enum := raw.enum.getD [], constraints := base, deprecated := a.deprecated }
        (raw.allOf.getD []) (raw.oneOf.getD []) (raw.anyOf.getD []) (raw.properties.getD [])
        raw.items (raw.additional.getD .none)

/-- The keywords of an object that decide of what kind a schema is and are not null. -/
def presentKeywords (members : List (String × Reading)) : List String :=
  kindKeywords.filter fun name => (findValue? name members).any fun r => !r.isNull

/-- The reference that an object is. -/
def reference? (v : Value) : Option String := (v.get? "$ref").bind Value.text?

/-- How version 3.0 reads schemas. -/
def rules : SchemaRules where
  reference := reference?
  inline members := do
    let a ← annotations? members
    let raw ← rawSchema? members
    return schemaOf (kindOf (presentKeywords members) raw) a raw

/-- Reads a schema or a reference. -/
def schema? (v : Value) : Option Schema := (Reading.of rules v).schema

/-! ## Parts of a description -/

/-- The members of an object as a record that ignores what it does not know. -/
def object? (v : Value) : Option Record :=
  match v with
  | .object _ => some ⟨[], v⟩
  | _ => none

/-- Reads a value that is a reference or something else. -/
def orReference? {α : Type u} (ofReference : String → α) (read : Value → Option α) (v : Value) :
    Option α :=
  match reference? v with
  | some target => some (ofReference target)
  | none => read v

/-- Whether a field that may be absent is an object. -/
def objectField? (r : Record) (name : String) : Option Unit :=
  r.orElse? name () fun v => v.members?.map fun _ => ()

/-- Reads a content. -/
def media? (v : Value) : Option (Option Schema) := do
  let r ← object? v
  let _ ← objectField? r "examples"
  let _ ← objectField? r "encoding"
  r.optional? "schema" schema?

/-- Reads contents under their types. -/
def contents? (v : Value) : Option (List Media) :=
  (v.mapOf? media?).map fun found => found.map fun (type, schema) => ⟨type, schema⟩

/-- Reads a request body or a reference to one. -/
def requestBody? : Value → Option Body :=
  orReference? (fun target => { reference := some target }) fun v => do
    let r ← object? v
    let _ ← r.optional? "description" Value.text?
    let _ ← r.orElse? "required" false Value.bool?
    return { contents := ← r.orElse? "content" [] contents? }

/-- Reads a response or a reference to one. -/
def response? : Value → Option Body :=
  orReference? (fun target => { reference := some target }) fun v => do
    let r ← object? v
    let _ ← r.required? "description" Value.text?
    let _ ← objectField? r "headers"
    let _ ← objectField? r "links"
    return { contents := ← r.orElse? "content" [] contents? }

/-- The styles in which a parameter of a location may be written; none for what is no location. -/
def styles (location : String) : List String :=
  match location with
  | "query" => ["form", "spaceDelimited", "pipeDelimited", "deepObject"]
  | "path" => ["matrix", "label", "simple"]
  | "header" => ["simple"]
  | "cookie" => ["form"]
  | _ => []

/-- Reads the schema or the contents of a parameter, whichever is written first. -/
def parameterFormat? : List (String × Value) → Option (Option Schema × List Media)
  | [] => none
  | ("schema", v) :: _ => (schema? v).map fun schema => (some schema, [])
  | ("content", v) :: _ => (contents? v).map fun contents => (none, contents)
  | _ :: rest => parameterFormat? rest

/-- Reads a parameter or a reference to one. -/
def parameter? : Value → Option ParameterDecl :=
  orReference? (fun target => { reference := some target }) fun v => do
    let r ← object? v
    let location ← r.required? "in" Value.text?
    if (styles location).isEmpty then none
    else
      let name ← r.required? "name" Value.text?
      let required ← r.orElse? "required" false Value.bool?
      let _ ← r.optional? "description" Value.text?
      let _ ← r.optional? "deprecated" Value.bool?
      let _ ← r.optional? "explode" Value.bool?
      let _ ← objectField? r "examples"
      let _ ← r.orElse? "style" () fun v =>
        v.text?.bind fun style => if (styles location).contains style then some () else none
      let (schema, contents) ← v.members?.bind parameterFormat?
      return {
        name := some name, location := some location, required, schema, contents }

/-- A status as it is reported, if a key is one: a number of three digits, or a digit and two
letters for all numbers that begin with the digit. -/
def status? (key : String) : Option String :=
  match key.toList with
  | [a, b, c] =>
      if a.isDigit && b.isDigit && c.isDigit && a != '0' then some key
      else if a.isDigit && b.toUpper == 'X' && c.toUpper == 'X' then
        some (String.ofList [a, 'X', 'X'])
      else none
  | _ => none

/-- Reads responses under their status. The default comes last, wherever it is written. -/
def responses? (v : Value) : Option (List (String × Body)) := do
  let r ← object? v
  let members ← v.members?
  let default ← r.optional? "default" response?
  let known := members.filterMap fun (key, v) => (status? key).map fun status => (status, v)
  let found ← known.mapM fun (status, v) => (response? v).map fun body => (status, body)
  return (OrderedMap.ofList found).entries
    ++ (default.map fun body => ("default", body)).toList

/-- Reads a list of servers. -/
def servers? (v : Value) : Option Unit :=
  (v.listOf? fun server => do
    let r ← object? server
    let _ ← r.required? "url" Value.text?
    r.optional? "description" Value.text?).map fun _ => ()

/-- Reads an operation. -/
def operation? (v : Value) : Option Operation := do
  let r ← object? v
  let _ ← r.orElse? "tags" [] Value.texts?
  let _ ← r.optional? "summary" Value.text?
  let _ ← r.optional? "description" Value.text?
  let _ ← objectField? r "callbacks"
  let _ ← r.orElse? "servers" () servers?
  return {
    operationId := ← r.optional? "operationId" Value.text?
    deprecated := ← r.orElse? "deprecated" false Value.bool?
    parameters := ← r.orElse? "parameters" [] (Value.listOf? parameter?)
    requestBody := ← r.optional? "requestBody" requestBody?
    responses := ← r.required? "responses" responses? }

/-- Reads a path or a reference to one. -/
def pathItem? : Value → Option PathItem :=
  orReference? (fun target => { reference := some target }) fun v => do
    let r ← object? v
    let _ ← r.optional? "summary" Value.text?
    let _ ← r.optional? "description" Value.text?
    let _ ← r.orElse? "servers" () servers?
    let parameters ← r.orElse? "parameters" [] (Value.listOf? parameter?)
    let operations ← Description.methods.mapM fun method =>
      (r.optional? method operation?).map fun op => (method, op)
    return {
      parameters
      operations := operations.filterMap fun (method, op) => op.map fun op => (method, op) }

/-- Reads the paths, which begin with a slash; other members are extensions. -/
def paths? (v : Value) : Option (List (String × PathItem)) := do
  let members ← v.members?
  (members.filter fun (path, _) => path.toList.head? == some '/').mapM fun (path, v) =>
    (pathItem? v).map fun item => (path, item)

/-- Reads what a description says about itself. -/
def info? (v : Value) : Option Unit := do
  let r ← object? v
  let _ ← r.required? "title" Value.text?
  let _ ← r.required? "version" Value.text?
  let _ ← r.optional? "description" Value.text?
  let _ ← r.optional? "termsOfService" Value.text?
  return ()

/-- The sections of the components. -/
structure Components where
  /-- The schemas. -/
  schemas : List (String × Schema) := []
  /-- The parameters. -/
  parameters : List (String × ParameterDecl) := []
  /-- The request bodies. -/
  requestBodies : List (String × Body) := []
  /-- The responses. -/
  responses : List (String × Body) := []

/-- Reads the components. -/
def components? (v : Value) : Option Components := do
  let r ← object? v
  for name in ["securitySchemes", "examples", "headers", "links", "callbacks"] do
    let _ ← objectField? r name
  return {
    schemas := ← r.orElse? "schemas" [] (Value.mapOf? schema?)
    parameters := ← r.orElse? "parameters" [] (Value.mapOf? parameter?)
    requestBodies := ← r.orElse? "requestBodies" [] (Value.mapOf? requestBody?)
    responses := ← r.orElse? "responses" [] (Value.mapOf? response?) }

/-- Reads a description of version 3.0. -/
def description? (v : Value) : Option Description := do
  let r ← object? v
  let version ← r.required? "openapi" Value.text?
  let _ ← r.required? "info" info?
  let _ ← r.orElse? "servers" () servers?
  let paths ← r.required? "paths" paths?
  let components := (← r.optional? "components" components?).getD {}
  return {
    dialect := .early, version, paths
    schemas := components.schemas
    parameters := components.parameters
    requestBodies := components.requestBodies
    responses := components.responses }

end ApiTypes.Version30
