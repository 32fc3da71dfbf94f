import ApiTypes.Model.Naming
import ApiTypes.Resolve.Api

/-!
# Reports

A resolved description as texts: how every component and every use of a type is written in source
text, and which qualified names that needs. A report is written as a document; fields that are
empty, and flags that are not set, are left out.
-/

set_option autoImplicit false

namespace ApiTypes

/-- How a type is used. -/
structure TypeReport where
  /-- The type in source text. -/
  type : String
  /-- The qualified names that the type and its annotations need. -/
  imports : List String
  /-- The annotations as they are written. -/
  annotations : List String

/-- A component. -/
structure ModelReport where
  /-- The name of the component. -/
  name : String
  /-- The kind of its type. -/
  kind : String
  /-- The package of its type. -/
  package : String
  /-- Its type. -/
  type : TypeReport
  /-- The qualified names that what the type refers to needs. -/
  referencedImports : List String
  /-- The properties and their types. -/
  properties : List (String × String)
  /-- The required properties. -/
  required : List String
  /-- The values of an enumeration. -/
  values : List String
  /-- Whether the component is deprecated. -/
  deprecated : Bool

/-- A parameter. -/
structure ParameterReport where
  /-- The name. -/
  name : String
  /-- Where the parameter is in the request. -/
  location : String
  /-- Whether the parameter is required. -/
  required : Bool
  /-- Its type. -/
  type : TypeReport

/-- A content. -/
structure ContentReport where
  /-- The content type. -/
  contentType : String
  /-- Its type; none for a content without schema. -/
  type : Option TypeReport

/-- A response. -/
structure ResponseReport where
  /-- The status. -/
  status : String
  /-- The contents. -/
  contents : List ContentReport

/-- An operation. -/
structure EndpointReport where
  /-- The path. -/
  path : String
  /-- The method. -/
  method : String
  /-- The name of the operation. -/
  operation : String
  /-- Whether the operation is deprecated. -/
  deprecated : Bool
  /-- The parameters. -/
  parameters : List ParameterReport
  /-- The contents of the request body. -/
  requestBody : List ContentReport
  /-- The responses. -/
  responses : List ResponseReport

/-- A report. -/
structure Report where
  /-- The components in the order of the description. -/
  models : List ModelReport
  /-- The operations. -/
  endpoints : List EndpointReport

/-! ## From resolved descriptions to reports -/

/-- The report of a type with the annotations of one use, which come after those of the type. -/
def TypeReport.ofUse (types : TypeStore) (id : TypeId) (usage : List Annotation) : TypeReport :=
  let annotations := usage.foldl TypeStore.addAnnotation (types.annotations id)
  { type := types.typeName id
    imports := sortedSet (types.imports id ++ annotations.flatMap Annotation.imports)
    annotations := annotations.map Annotation.render }

/-- The values of an enumeration. -/
def ModelType.enumValues : ModelType → List String
  | enum _ _ values _ _ => values
  | _ => []

/-- The report of a component. -/
def ModelReport.ofType (types : TypeStore) (name : String) (id : TypeId) : ModelReport :=
  let type := types.get? id
  { name
    kind := (type.map ModelType.kind).getD "pending"
    package := types.package id
    type := .ofUse types id []
    referencedImports := types.referencedImports id
    properties := (types.properties id).entries.map fun (name, id) => (name, types.typeName id)
    required := types.required id
    values := (type.map ModelType.enumValues).getD []
    deprecated := (type.map ModelType.deprecated).getD false }

/-- The report of a content. -/
def ContentReport.ofContent (types : TypeStore) (c : ResolvedContent) : ContentReport :=
  ⟨c.contentType, c.type.map fun id => .ofUse types id c.annotations⟩

/-- The report of an operation. -/
def EndpointReport.ofEndpoint (types : TypeStore) (e : ResolvedEndpoint) : EndpointReport :=
  { path := e.path
    method := e.method
    operation := e.operation
    deprecated := e.deprecated
    parameters := e.parameters.map fun p =>
      ⟨p.name, p.location, p.required, .ofUse types p.type p.annotations⟩
    requestBody := e.requestBody.map (.ofContent types)
    responses := e.responses.map fun r => ⟨r.status, r.contents.map (.ofContent types)⟩ }

namespace Report

/-- The report of a resolved description. -/
def ofApi (api : ResolvedApi) : Report :=
  { models := api.models.map fun (name, id) => .ofType api.types name id
    endpoints := api.endpoints.map (.ofEndpoint api.types) }

/-- The report of the component of a name. -/
def model? (r : Report) (name : String) : Option ModelReport :=
  r.models.find? fun m => m.name == name

end Report

/-! ## Reports as documents -/

/-- A list of texts under a name, left out if it is empty. -/
def textsField (name : String) (texts : List String) : List (String × Value) :=
  if texts.isEmpty then [] else [(name, .list (texts.map .str))]

/-- A list under a name, left out if it is empty. -/
def listField (name : String) (items : List Value) : List (String × Value) :=
  if items.isEmpty then [] else [(name, .list items)]

/-- A flag under a name, left out if it is not set. -/
def flagField (name : String) (isSet : Bool) : List (String × Value) :=
  if isSet then [(name, .bool true)] else []

/-- The fields of a type. -/
def TypeReport.fields (t : TypeReport) : List (String × Value) :=
  ("type", .str t.type) :: (textsField "imports" t.imports
    ++ textsField "annotations" t.annotations)

/-- A component as a document. -/
def ModelReport.toValue (m : ModelReport) : Value :=
  .object <|
    [("name", .str m.name), ("kind", .str m.kind), ("package", .str m.package)]
      ++ m.type.fields
      ++ textsField "referenced_imports" m.referencedImports
      ++ (if m.properties.isEmpty then []
        else [("properties", .object (m.properties.map fun (name, type) => (name, .str type)))])
      ++ textsField "required" m.required
      ++ textsField "values" m.values
      ++ flagField "deprecated" m.deprecated

/-- A parameter as a document. -/
def ParameterReport.toValue (p : ParameterReport) : Value :=
  .object <|
    [("name", .str p.name), ("in", .str p.location), ("required", .bool p.required)]
      ++ p.type.fields

/-- A content as a document. -/
def ContentReport.toValue (c : ContentReport) : Value :=
  .object (("content_type", .str c.contentType) :: (c.type.map TypeReport.fields).getD [])

/-- A response as a document. -/
def ResponseReport.toValue (r : ResponseReport) : Value :=
  .object (("status", .str r.status)
    :: listField "contents" (r.contents.map ContentReport.toValue))

/-- An operation as a document. -/
def EndpointReport.toValue (e : EndpointReport) : Value :=
  .object <|
    [("path", .str e.path), ("method", .str e.method), ("operation", .str e.operation)]
      ++ flagField "deprecated" e.deprecated
      ++ listField "parameters" (e.parameters.map ParameterReport.toValue)
      ++ listField "request_body" (e.requestBody.map ContentReport.toValue)
      ++ [("responses", .list (e.responses.map ResponseReport.toValue))]

/-- A report as a document. -/
def Report.toValue (r : Report) : Value :=
  .object
    [("models", .list (r.models.map ModelReport.toValue)),
      ("endpoints", .list (r.endpoints.map EndpointReport.toValue))]

end ApiTypes
