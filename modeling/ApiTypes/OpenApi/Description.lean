import ApiTypes.Error
import ApiTypes.OpenApi.Schema
import ApiTypes.OrderedMap

/-!
# API descriptions

An API description as all versions of the format agree on it, and its operations. References to
parameters, request bodies and responses are followed here, and the parameters of a path are
merged with those of its operations. Where the versions differ is a matter of the dialect: which
components a reference may lead to, in which order an operation is read, and whether a path may be
a reference.
-/

set_option autoImplicit false

namespace ApiTypes

/-- The two ways of reading an API description. -/
inductive Dialect where
  /-- Version 3.0. -/
  | early
  /-- Versions 3.1 and 3.2. -/
  | late
  deriving DecidableEq

/-- A content type and its schema. -/
structure Media where
  /-- The content type. -/
  contentType : String
  /-- The schema, if there is one. -/
  schema : Option Schema

/-- A request body or a response: its contents, or a reference. -/
structure Body where
  /-- The reference. -/
  reference : Option String := none
  /-- The contents. -/
  contents : List Media := []

instance : Inhabited Body := ⟨{}⟩

/-- A parameter as it is declared, or a reference to one. -/
structure ParameterDecl where
  /-- The reference. -/
  reference : Option String := none
  /-- The name. -/
  name : Option String := none
  /-- Where the parameter is in the request. -/
  location : Option String := none
  /-- Whether the parameter is required. -/
  required : Bool := false
  /-- The schema. -/
  schema : Option Schema := none
  /-- The contents that may stand in place of the schema. -/
  contents : List Media := []

instance : Inhabited ParameterDecl := ⟨{}⟩

/-- An operation as it is declared. -/
structure Operation where
  /-- The identifier. -/
  operationId : Option String := none
  /-- Whether the operation is deprecated. -/
  deprecated : Bool := false
  /-- The parameters. -/
  parameters : List ParameterDecl := []
  /-- The request body. -/
  requestBody : Option Body := none
  /-- The responses under their status. -/
  responses : List (String × Body) := []

instance : Inhabited Operation := ⟨{}⟩

/-- A path as it is declared. -/
structure PathItem where
  /-- The reference that stands for the whole path, where a path may be one. -/
  reference : Option String := none
  /-- The parameters of all operations. -/
  parameters : List ParameterDecl := []
  /-- The operations under their methods. -/
  operations : List (String × Operation) := []

instance : Inhabited PathItem := ⟨{}⟩

/-- An API description. -/
structure Description where
  /-- How it is read. -/
  dialect : Dialect
  /-- The version. -/
  version : String
  /-- The schemas of the components. -/
  schemas : List (String × Schema) := []
  /-- The parameters of the components. -/
  parameters : List (String × ParameterDecl) := []
  /-- The request bodies of the components. -/
  requestBodies : List (String × Body) := []
  /-- The responses of the components. -/
  responses : List (String × Body) := []
  /-- The paths. -/
  paths : List (String × PathItem) := []

/-- A parameter of an operation. -/
structure Parameter where
  /-- The name. -/
  name : String
  /-- Where the parameter is in the request. -/
  location : String
  /-- Whether the parameter is required. -/
  required : Bool
  /-- The schema, or that of the first content that has one. -/
  schema : SchemaNode

/-- A content of a request body or a response. -/
structure Content where
  /-- The content type. -/
  contentType : String
  /-- The schema, if there is one. -/
  schema : Option SchemaNode

/-- An operation with everything that it refers to. -/
structure Endpoint where
  /-- The path. -/
  path : String
  /-- The method. -/
  method : String
  /-- The identifier. -/
  operationId : Option String
  /-- Whether the operation is deprecated. -/
  deprecated : Bool
  /-- The parameters of the path and the operation. -/
  parameters : List Parameter
  /-- The contents of the request body. -/
  requestBody : List Content
  /-- The contents of the responses under their status. -/
  responses : List (String × List Content)

namespace Description

/-- The schemas of the components as nodes. -/
def components (d : Description) : List (String × SchemaNode) :=
  d.schemas.map fun (name, schema) => (name, ⟨SchemaKey.component name, schema⟩)

/-- The schema that a reference leads to. -/
def resolve? (d : Description) (reference : String) : Option SchemaNode := do
  let name ← Pointer.componentName? reference "schemas"
  let schema ← findValue? name d.schemas
  return ⟨SchemaKey.component name, schema⟩

/-- The number of schemas in the components. -/
def schemaCount (d : Description) : Nat := Schema.countMembers d.schemas

/-- The key of the components of a section. -/
def sectionKey (section_ : String) : SchemaKey := ⟨"#/components/" ++ section_⟩

/-- Whether a reference may lead to a component that is a reference itself, or not. -/
def mayFollow (d : Description) (reference : Option String) : Bool :=
  match d.dialect with
  | .early => reference.isNone
  | .late => true

/-- The parameter that a reference leads to, and its key. -/
def parameter? (d : Description) (reference : String) : Option (SchemaKey × ParameterDecl) := do
  let name ← Pointer.componentName? reference "parameters"
  let found ← findValue? name d.parameters
  if d.mayFollow found.reference then
    return ((sectionKey "parameters").child name, found)
  else none

/-- The request body or response that a reference leads to, and its key. -/
def body? (d : Description) (section_ : String) (bodies : List (String × Body))
    (reference : String) : Option (SchemaKey × Body) := do
  let name ← Pointer.componentName? reference section_
  let found ← findValue? name bodies
  if d.mayFollow found.reference then
    return ((sectionKey section_).child name, found)
  else none

/-- The key of the schema of a content below a node. -/
def mediaKey (key : SchemaKey) (contentType : String) : SchemaKey :=
  ((key.child "content").child contentType).child "schema"

/-- The contents of a request body or a response, references followed. -/
def contents (d : Description) (section_ : String) (bodies : List (String × Body))
    (key : SchemaKey) (body : Body) : Except Error (List Content) :=
  let found : Except Error (SchemaKey × Body) :=
    match body.reference with
    | none => .ok (key, body)
    | some reference =>
        match d.body? section_ bodies reference with
        | some found => .ok found
        | none => .error (.unresolvableReference reference key.text)
  found.map fun (key, body) =>
    body.contents.map fun media =>
      ⟨media.contentType, media.schema.map fun schema =>
        ⟨mediaKey key media.contentType, schema⟩⟩

/-- The schema of a parameter: its own, or that of the first content that has one. -/
def parameterSchema? (key : SchemaKey) (p : ParameterDecl) : Option SchemaNode :=
  match p.schema with
  | some schema => some ⟨key.child "schema", schema⟩
  | none =>
      p.contents.findSome? fun media =>
        media.schema.map fun schema => ⟨mediaKey key media.contentType, schema⟩

/-- A declared parameter, references followed. -/
def parameter (d : Description) (key : SchemaKey) (p : ParameterDecl) :
    Except Error Parameter := do
  let (key, p) ←
    match p.reference with
    | none => pure (key, p)
    | some reference =>
        match d.parameter? reference with
        | some found => pure found
        | none => throw (.unresolvableReference reference key.text)
  match p.name, p.location with
  | some name, some location =>
      match parameterSchema? key p with
      | some schema => return ⟨name, location, p.required, schema⟩
      | none => throw (.description (.parameterWithoutSchema name key.text))
  | _, _ => throw (.description (.parameterWithoutName key.text))

/-- Puts a parameter in place of the one of the same name and location, or at the end. -/
def mergeParameter (p : Parameter) : List Parameter → List Parameter
  | [] => [p]
  | q :: rest =>
      if q.name = p.name ∧ q.location = p.location then p :: rest
      else q :: mergeParameter p rest

/-- The declared parameters of a path and of an operation with their keys. -/
def declared (pathKey operationKey : SchemaKey) (item : PathItem) (op : Operation) :
    List (SchemaKey × ParameterDecl) :=
  let keyed (key : SchemaKey) (ps : List ParameterDecl) : List (SchemaKey × ParameterDecl) :=
    ps.zipIdx.map fun (p, index) => ((key.child "parameters").item index, p)
  keyed pathKey item.parameters ++ keyed operationKey op.parameters

/-- The parameters of an operation: those of the path, and those of its own, which come in place
of those of the path. -/
def parametersOf (d : Description) (pathKey operationKey : SchemaKey) (item : PathItem)
    (op : Operation) : Except Error (List Parameter) := do
  let found ← (declared pathKey operationKey item op).mapM fun (key, p) => d.parameter key p
  return found.foldl (fun merged p => mergeParameter p merged) []

/-- The contents of the request body of an operation. -/
def requestBodyOf (d : Description) (operationKey : SchemaKey) (op : Operation) :
    Except Error (List Content) :=
  match op.requestBody with
  | none => .ok []
  | some body =>
      d.contents "requestBodies" d.requestBodies (operationKey.child "requestBody") body

/-- The contents of the responses of an operation. -/
def responsesOf (d : Description) (operationKey : SchemaKey) (op : Operation) :
    Except Error (List (String × List Content)) :=
  let key := operationKey.child "responses"
  op.responses.mapM fun (status, body) => do
    return (status, ← d.contents "responses" d.responses (key.child status) body)

/-- An operation with everything that it refers to. -/
def endpoint (d : Description) (path : String) (item : PathItem) (method : String)
    (op : Operation) : Except Error Endpoint := do
  let pathKey : SchemaKey := SchemaKey.child ⟨"#/paths"⟩ path
  let key := pathKey.child method
  -- The order of the parts decides which of several faults is told.
  match d.dialect with
  | .early =>
      let responses ← d.responsesOf key op
      let parameters ← d.parametersOf pathKey key item op
      let requestBody ← d.requestBodyOf key op
      return ⟨path, method, op.operationId, op.deprecated, parameters, requestBody, responses⟩
  | .late =>
      let requestBody ← d.requestBodyOf key op
      let responses ← d.responsesOf key op
      let parameters ← d.parametersOf pathKey key item op
      return ⟨path, method, op.operationId, op.deprecated, parameters, requestBody, responses⟩

/-- The methods of operations in the order in which a path reports them. -/
def methods : List String :=
  ["get", "put", "post", "delete", "options", "head", "patch", "trace"]

/-- The operations of a path. -/
def pathEndpoints (d : Description) (path : String) (item : PathItem) :
    Except Error (List Endpoint) :=
  match item.reference with
  | some reference =>
      .error (.unresolvableReference reference (SchemaKey.child ⟨"#/paths"⟩ path).text)
  | none =>
      (methods.filterMap fun method =>
        (findValue? method item.operations).map fun op => (method, op)).mapM
          fun (method, op) => d.endpoint path item method op

/-- The operations of all paths. -/
def endpoints (d : Description) : Except Error (List Endpoint) := do
  let found ← d.paths.mapM fun (path, item) => d.pathEndpoints path item
  return found.flatten

end Description

end ApiTypes
