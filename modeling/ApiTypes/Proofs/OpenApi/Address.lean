import ApiTypes.Proofs.OpenApi.Endpoints

/-!
# Places in a description

Where a schema stands in a description can be told without its key: it is a component, or it belongs
to a parameter, a request body or a response, which is shared or declared in a path, or it is at the
end of some ways below such a schema. A `Place` is that as data, and `Description.schemaAt?` looks
up what stands there. The key of a place is the pointer that leads to it. A pointer can be read from
the front (`Seat.first?`, `Label.first?`), whatever the names in it are, so different places have
different keys (`Place.key_inj`).
-/

set_option autoImplicit false

namespace ApiTypes

/-! ## Places -/

/-- A method of operations. -/
abbrev Method := { method : String // method ∈ Description.methods }

/-- Where a parameter is declared. -/
inductive ParameterSite where
  /-- In the components. -/
  | shared (name : String)
  /-- In a path, for all its operations. -/
  | ofPath (path : String) (index : Nat)
  /-- In an operation. -/
  | ofOperation (path : String) (method : Method) (index : Nat)

/-- Where a request body or a response is declared. -/
inductive BodySite where
  /-- A request body in the components. -/
  | sharedRequestBody (name : String)
  /-- A response in the components. -/
  | sharedResponse (name : String)
  /-- The request body of an operation. -/
  | requestBody (path : String) (method : Method)
  /-- The response of an operation for a status. -/
  | response (path : String) (method : Method) (status : String)

/-- Where a schema stands that is in no other schema. -/
inductive Seat where
  /-- In the components. -/
  | component (name : String)
  /-- The schema of a parameter. -/
  | parameterSchema (site : ParameterSite)
  /-- The schema of a content of a parameter. -/
  | parameterContent (site : ParameterSite) (type : String)
  /-- The schema of a content of a request body or a response. -/
  | bodyContent (site : BodySite) (type : String)

/-- Where a schema stands. -/
structure Place where
  /-- The schema that is in no other one. -/
  seat : Seat
  /-- The ways from there, the first one first. -/
  ways : List Label

/-- The place at the end of one more way. -/
def Place.below (p : Place) (l : Label) : Place := ⟨p.seat, p.ways ++ [l]⟩

/-! ## What stands at a place -/

/-- The schema at the end of a way. -/
def Schema.child? : Schema → Label → Option Schema
  | .reference _, _ => none
  | .inline _ _ _ _ _ items _, .items => items
  | .inline _ _ _ _ _ _ additional, .additional =>
      match additional with
      | .described s => some s
      | _ => none
  | .inline _ allOf _ _ _ _ _, .allOf index => allOf[index]?
  | .inline _ _ oneOf _ _ _ _, .oneOf index => oneOf[index]?
  | .inline _ _ _ anyOf _ _ _, .anyOf index => anyOf[index]?
  | .inline _ _ _ _ properties _ _, .property name => findValue? name properties

/-- The schema at the end of several ways. -/
def Schema.below? : List Label → Schema → Option Schema
  | [], s => some s
  | l :: rest, s => (s.child? l).bind (below? rest)

namespace Description

variable (d : Description)

/-- The operation of a path and a method. -/
def operation? (path : String) (method : Method) : Option Operation :=
  (findValue? path d.paths).bind fun item => findValue? method.val item.operations

/-- The parameter that is declared at a site. -/
def parameterAt? : ParameterSite → Option ParameterDecl
  | .shared name => findValue? name d.parameters
  | .ofPath path index => (findValue? path d.paths).bind fun item => item.parameters[index]?
  | .ofOperation path method index =>
      (d.operation? path method).bind fun op => op.parameters[index]?

/-- The request body or response that is declared at a site. -/
def bodyAt? : BodySite → Option Body
  | .sharedRequestBody name => findValue? name d.requestBodies
  | .sharedResponse name => findValue? name d.responses
  | .requestBody path method => (d.operation? path method).bind (·.requestBody)
  | .response path method status =>
      (d.operation? path method).bind fun op => findValue? status op.responses

/-- The schema of the content of a type. -/
def contentSchema? (contents : List Media) (type : String) : Option Schema :=
  (contents.find? fun media => media.contentType == type).bind (·.schema)

/-- The schema that stands at a seat. -/
def seated? : Seat → Option Schema
  | .component name => findValue? name d.schemas
  | .parameterSchema site => (d.parameterAt? site).bind (·.schema)
  | .parameterContent site type =>
      (d.parameterAt? site).bind fun p => contentSchema? p.contents type
  | .bodyContent site type => (d.bodyAt? site).bind fun b => contentSchema? b.contents type

/-- The schema that stands at a place. -/
def schemaAt? (p : Place) : Option Schema :=
  (d.seated? p.seat).bind (Schema.below? p.ways)

end Description

theorem Schema.below?_append (ways more : List Label) (s : Schema) :
    below? (ways ++ more) s = (below? ways s).bind (below? more) := by
  induction ways generalizing s with
  | nil => rfl
  | cons l rest ih =>
      rw [List.cons_append, below?, below?, Option.bind_assoc]
      exact congrArg (Option.bind (s.child? l)) (funext fun below => ih below)

/-- What stands one way below a place. -/
theorem Description.schemaAt?_below (d : Description) (p : Place) (l : Label) :
    d.schemaAt? (p.below l) = (d.schemaAt? p).bind (·.child? l) := by
  simp only [schemaAt?, Place.below, Option.bind_assoc]
  refine congrArg (Option.bind _) (funext fun s => ?_)
  rw [Schema.below?_append]
  refine congrArg (Option.bind _) (funext fun below => ?_)
  simp only [Schema.below?, Option.bind_fun_some]

/-! ## Keys of places -/

/-- The key of an operation. -/
def operationKey (path : String) (method : Method) : SchemaKey :=
  (SchemaKey.child ⟨"#/paths"⟩ path).child method.val

/-- The key of a site. -/
def ParameterSite.key : ParameterSite → SchemaKey
  | shared name => (Description.sectionKey "parameters").child name
  | ofPath path index => ((SchemaKey.child ⟨"#/paths"⟩ path).child "parameters").item index
  | ofOperation path method index => ((operationKey path method).child "parameters").item index

/-- The key of a site. -/
def BodySite.key : BodySite → SchemaKey
  | sharedRequestBody name => (Description.sectionKey "requestBodies").child name
  | sharedResponse name => (Description.sectionKey "responses").child name
  | requestBody path method => (operationKey path method).child "requestBody"
  | response path method status => ((operationKey path method).child "responses").child status

/-- The key of a seat. -/
def Seat.key : Seat → SchemaKey
  | component name => SchemaKey.component name
  | parameterSchema site => site.key.child "schema"
  | parameterContent site type => Description.mediaKey site.key type
  | bodyContent site type => Description.mediaKey site.key type

/-- The key of a place. -/
def Place.key (p : Place) : SchemaKey :=
  p.ways.foldl (fun key l => l.key key) p.seat.key

theorem Place.key_below (p : Place) (l : Label) : (p.below l).key = l.key p.key := by
  rw [key, below, List.foldl_append]
  rfl

/-! ## Reading a pointer from the front -/

namespace Label

/-- The way that a pointer begins with, and the rest. -/
def first? : List String → Option (Label × List String)
  | "items" :: rest => some (items, rest)
  | "additionalProperties" :: rest => some (additional, rest)
  | "allOf" :: index :: rest => some (allOf (positionOf index), rest)
  | "oneOf" :: index :: rest => some (oneOf (positionOf index), rest)
  | "anyOf" :: index :: rest => some (anyOf (positionOf index), rest)
  | "properties" :: name :: rest => some (property name, rest)
  | _ => none

theorem first?_append (l : Label) (rest : List String) :
    first? (l.segments ++ rest) = some (l, rest) := by
  cases l with
  | items => rfl
  | additional => rfl
  | property name => rfl
  | _ => simp only [segments, List.cons_append, List.nil_append, first?, positionOf_toString]

/-- Ways are told by what they add to a pointer. -/
theorem flatMap_segments_inj {ways ways' : List Label}
    (h : ways.flatMap segments = ways'.flatMap segments) : ways = ways' := by
  induction ways generalizing ways' with
  | nil =>
      cases ways' with
      | nil => rfl
      | cons l rest =>
          rw [List.flatMap_cons] at h
          exact absurd (List.append_eq_nil_iff.mp h.symm).1 l.segments_ne_nil
  | cons l rest ih =>
      cases ways' with
      | nil =>
          rw [List.flatMap_cons] at h
          exact absurd (List.append_eq_nil_iff.mp h).1 l.segments_ne_nil
      | cons l' rest' =>
          have hfirst := congrArg first? h
          rw [List.flatMap_cons, List.flatMap_cons, first?_append, first?_append] at hfirst
          obtain ⟨rfl, hrest⟩ := Prod.mk.inj (Option.some.inj hfirst)
          rw [ih hrest]

end Label

namespace Seat

/-- The schema of a parameter that a pointer leads to, and the rest. -/
def ofParameter? (site : ParameterSite) : List String → Option (Seat × List String)
  | "schema" :: rest => some (parameterSchema site, rest)
  | "content" :: type :: "schema" :: rest => some (parameterContent site type, rest)
  | _ => none

/-- The schema of a content that a pointer leads to, and the rest. -/
def ofBody? (site : BodySite) : List String → Option (Seat × List String)
  | "content" :: type :: "schema" :: rest => some (bodyContent site type, rest)
  | _ => none

/-- The schema in an operation that a pointer leads to, and the rest. -/
def ofOperation? (path : String) (method : Method) : List String → Option (Seat × List String)
  | "parameters" :: index :: rest =>
      ofParameter? (.ofOperation path method (positionOf index)) rest
  | "requestBody" :: rest => ofBody? (.requestBody path method) rest
  | "responses" :: status :: rest => ofBody? (.response path method status) rest
  | _ => none

/-- The schema of a path that a pointer leads to, and the rest. -/
def ofPath? (path : String) : List String → Option (Seat × List String)
  | [] => none
  | segment :: rest =>
      if h : segment ∈ Description.methods then ofOperation? path ⟨segment, h⟩ rest
      else
        match rest with
        | index :: rest => ofParameter? (.ofPath path (positionOf index)) rest
        | [] => none

/-- The seat that a pointer begins with, and the rest. -/
def first? : List String → Option (Seat × List String)
  | "#" :: "components" :: "schemas" :: name :: rest => some (component name, rest)
  | "#" :: "components" :: "parameters" :: name :: rest => ofParameter? (.shared name) rest
  | "#" :: "components" :: "requestBodies" :: name :: rest => ofBody? (.sharedRequestBody name) rest
  | "#" :: "components" :: "responses" :: name :: rest => ofBody? (.sharedResponse name) rest
  | "#" :: "paths" :: path :: rest => ofPath? path rest
  | _ => none

theorem first?_operation (path : String) (method : Method) (rest : List String) :
    first? ((operationKey path method).segments ++ rest) = ofOperation? path method rest := by
  rw [operationKey, SchemaKey.segments_child, SchemaKey.segments_child, Description.segments_paths]
  simp only [List.cons_append, List.nil_append, first?, ofPath?]
  exact dif_pos method.property

theorem first?_parameterSite (site : ParameterSite) (rest : List String) :
    first? (site.key.segments ++ rest) = ofParameter? site rest := by
  cases site with
  | shared name =>
      rw [ParameterSite.key, SchemaKey.segments_child, Description.segments_sectionKey_parameters]
      rfl
  | ofPath path index =>
      rw [ParameterSite.key, SchemaKey.segments_item, SchemaKey.segments_child,
        SchemaKey.segments_child, Description.segments_paths]
      simp only [List.cons_append, List.nil_append, first?, ofPath?, positionOf_toString]
      exact dif_neg (by decide)
  | ofOperation path method index =>
      rw [ParameterSite.key, SchemaKey.segments_item, SchemaKey.segments_child, List.append_assoc,
        List.append_assoc, first?_operation]
      simp only [List.cons_append, List.nil_append, ofOperation?, positionOf_toString]

theorem first?_bodySite (site : BodySite) (rest : List String) :
    first? (site.key.segments ++ rest) = ofBody? site rest := by
  cases site with
  | sharedRequestBody name =>
      rw [BodySite.key, SchemaKey.segments_child, Description.segments_sectionKey_requestBodies]
      rfl
  | sharedResponse name =>
      rw [BodySite.key, SchemaKey.segments_child, Description.segments_sectionKey_responses]
      rfl
  | requestBody path method =>
      rw [BodySite.key, SchemaKey.segments_child, List.append_assoc, first?_operation]
      rfl
  | response path method status =>
      rw [BodySite.key, SchemaKey.segments_child, SchemaKey.segments_child, List.append_assoc,
        List.append_assoc, first?_operation]
      rfl

/-- **A pointer begins with one seat.** -/
theorem first?_append (seat : Seat) (rest : List String) :
    first? (seat.key.segments ++ rest) = some (seat, rest) := by
  cases seat with
  | component name =>
      rw [key, SchemaKey.segments_component]
      rfl
  | parameterSchema site =>
      rw [key, SchemaKey.segments_child, List.append_assoc, first?_parameterSite]
      rfl
  | parameterContent site type =>
      rw [key, Description.segments_mediaKey, List.append_assoc, first?_parameterSite]
      rfl
  | bodyContent site type =>
      rw [key, Description.segments_mediaKey, List.append_assoc, first?_bodySite]
      rfl

end Seat

theorem Place.segments_key (p : Place) :
    p.key.segments = p.seat.key.segments ++ p.ways.flatMap Label.segments := by
  have hfold : ∀ (ways : List Label) (key : SchemaKey),
      (ways.foldl (fun key l => l.key key) key).segments
        = key.segments ++ ways.flatMap Label.segments := by
    intro ways
    induction ways with
    | nil => exact fun key => (List.append_nil _).symm
    | cons l rest ih =>
        intro key
        rw [List.foldl_cons, ih, Label.segments_key, List.flatMap_cons, List.append_assoc]
  exact hfold p.ways p.seat.key

/-- **Different places have different keys**, whatever names are in them. -/
theorem Place.key_inj {p q : Place} (h : p.key = q.key) : p = q := by
  have hsegments := congrArg SchemaKey.segments h
  rw [segments_key, segments_key] at hsegments
  have hfirst := congrArg Seat.first? hsegments
  rw [Seat.first?_append, Seat.first?_append] at hfirst
  obtain ⟨hseat, hways⟩ := Prod.mk.inj (Option.some.inj hfirst)
  cases p with
  | mk seat ways =>
      cases q with
      | mk seat' ways' =>
          obtain rfl : seat = seat' := hseat
          obtain rfl : ways = ways' := Label.flatMap_segments_inj hways
          rfl

end ApiTypes
