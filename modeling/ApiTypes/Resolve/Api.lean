import ApiTypes.OpenApi.Load
import ApiTypes.Resolve.Walk

/-!
# Resolving a description

All components are resolved in their order, then all operations of the paths that are not left
out. The first error ends the run.
-/

set_option autoImplicit false

namespace ApiTypes

/-- A resolved parameter. -/
structure ResolvedParameter where
  /-- The name. -/
  name : String
  /-- Where the parameter is in the request. -/
  location : String
  /-- Whether the parameter is required. -/
  required : Bool
  /-- The type. -/
  type : TypeId
  /-- The annotations of this parameter alone. -/
  annotations : List Annotation

/-- A resolved content. -/
structure ResolvedContent where
  /-- The content type. -/
  contentType : String
  /-- The type; none for a content without schema. -/
  type : Option TypeId
  /-- The annotations of this content alone. -/
  annotations : List Annotation

/-- A resolved response. -/
structure ResolvedResponse where
  /-- The status. -/
  status : String
  /-- The contents. -/
  contents : List ResolvedContent

/-- A resolved operation. -/
structure ResolvedEndpoint where
  /-- The path. -/
  path : String
  /-- The method. -/
  method : String
  /-- The name, which the names of its own types begin with. -/
  operation : String
  /-- Whether the operation is deprecated. -/
  deprecated : Bool
  /-- The parameters. -/
  parameters : List ResolvedParameter
  /-- The contents of the request body. -/
  requestBody : List ResolvedContent
  /-- The responses. -/
  responses : List ResolvedResponse

/-- A resolved description. -/
structure ResolvedApi where
  /-- The types. -/
  types : TypeStore
  /-- The types of the components. -/
  models : List (String × TypeId)
  /-- The operations. -/
  endpoints : List ResolvedEndpoint

namespace ResolvedApi

/-- The type of a component. -/
def model? (api : ResolvedApi) (name : String) : Option TypeId := findValue? name api.models

/-- A text with the capital letters of ASCII made small. -/
def lowered (text : String) : List Char := text.toList.map Char.toLower

/-- The operation of a path and a method, capital letters being as good as small ones. -/
def endpoint? (api : ResolvedApi) (path method : String) : Option ResolvedEndpoint :=
  api.endpoints.find? fun e => e.path == path && lowered e.method == lowered method

end ResolvedApi

/-- The name of an operation: its identifier, or its method and path. -/
def Endpoint.operationName (e : Endpoint) : String :=
  Text.upperCamel (e.operationId.getD (e.method ++ " " ++ e.path))

namespace Resolver

/-- Resolves components one by one. -/
def resolveComponents (r : Resolver) : List (String × SchemaNode) → Walk (List (String × TypeId))
  | [] => pure []
  | (name, n) :: rest => do
      let id ← r.resolveComponent n name
      let ids ← r.resolveComponents rest
      pure ((name, id) :: ids)

/-- Resolves the parameters of an operation. -/
def resolveParameters (r : Resolver) (path operation : String) :
    List Parameter → Walk (List ResolvedParameter)
  | [] => pure []
  | p :: rest => do
      let name := Text.upperCamel (operation ++ " " ++ p.name)
      let found ← r.resolveUse (some path) (.parameter p.name) p.schema name
      let others ← r.resolveParameters path operation rest
      pure (⟨p.name, p.location, p.required, found.type, found.annotations⟩ :: others)

/-- Resolves contents, each in the use that belongs to its type. -/
def resolveContents (r : Resolver) (path name : String) (use : String → Use) :
    List Content → Walk (List ResolvedContent)
  | [] => pure []
  | content :: rest => do
      let found ←
        match content.schema with
        | some schema => do
            let found ← r.resolveUse (some path) (use content.contentType) schema name
            pure (ResolvedContent.mk content.contentType (some found.type) found.annotations)
        | none => pure (ResolvedContent.mk content.contentType none [])
      let others ← r.resolveContents path name use rest
      pure (found :: others)

/-- Resolves the responses of an operation. -/
def resolveResponses (r : Resolver) (path operation : String) :
    List (String × List Content) → Walk (List ResolvedResponse)
  | [] => pure []
  | (status, contents) :: rest => do
      let name := operation ++ "Response" ++ Text.upperCamel status
      let found ← r.resolveContents path name .response contents
      let others ← r.resolveResponses path operation rest
      pure (⟨status, found⟩ :: others)

/-- Resolves an operation. -/
def resolveEndpoint (r : Resolver) (e : Endpoint) : Walk ResolvedEndpoint := do
  let operation := e.operationName
  let parameters ← r.resolveParameters e.path operation e.parameters
  let requestBody ←
    r.resolveContents e.path (operation ++ "RequestBody") (fun _ => .schema) e.requestBody
  let responses ← r.resolveResponses e.path operation e.responses
  pure ⟨e.path, e.method, operation, e.deprecated, parameters, requestBody, responses⟩

/-- Resolves operations one by one. -/
def resolveEndpoints (r : Resolver) : List Endpoint → Walk (List ResolvedEndpoint)
  | [] => pure []
  | e :: rest =>
      if Lookup.isExcluded r.mappings e.path then r.resolveEndpoints rest
      else do
        let found ← r.resolveEndpoint e
        let others ← r.resolveEndpoints rest
        pure (found :: others)

/-- Resolves all components and all operations. -/
def resolveAll (r : Resolver) : Walk (List (String × TypeId) × List ResolvedEndpoint) := do
  let models ← r.resolveComponents r.description.components
  let endpoints ← Walk.ofExcept r.description.endpoints
  let resolved ← r.resolveEndpoints endpoints
  pure (models, resolved)

/-- The resolved description, if there is no error. -/
def run (r : Resolver) : Except Error ResolvedApi :=
  match (r.resolveAll.run {} : Except Error _ × WalkState) with
  | (.ok (models, endpoints), s) => .ok ⟨s.types, models, endpoints⟩
  | (.error e, _) => .error e

end Resolver

/-- Reads a text as a description and resolves it. -/
def resolveText (text : String) (options : Options) : Except Error ResolvedApi :=
  match Description.load text with
  | .ok description => (Resolver.mk description options).run
  | .error fault => .error (.description fault)

end ApiTypes
