import ApiTypes.Proofs.Document.Characters
import ApiTypes.Proofs.OpenApi.Address
import ApiTypes.Proofs.OpenApi.Loading

/-!
# Nodes and their places

A description tells schema nodes: its components, what references lead to, the schemas of its
operations, and whatever is below one of these (`Description.Told`). Each of them stands at a place
(`Description.Told.exists_obtained`), which is the place that the data is taken from: that of the
component that a reference names, that of the declaration of a parameter or of a body, or of the
shared one that it refers to, and one way further for a node below another one. The schema of the
node is the one that stands there, and the key of the node is the key of the place. So keys are
equal where places are equal, and nowhere else (`key_eq_iff_of_told`).
-/

set_option autoImplicit false

namespace ApiTypes

namespace SchemaNode

theorem schema_of_getElem?_listed {n m : SchemaNode} {keyword : String} {schemas : List Schema}
    {index : Nat} (h : (n.listed keyword schemas)[index]? = some m) :
    schemas[index]? = some m.schema := by
  rw [listed, List.getElem?_map, List.getElem?_zipIdx] at h
  cases hs : schemas[index]? with
  | none => simp [hs] at h
  | some schema =>
      rw [hs] at h
      simp only [Option.map_some, Option.some.injEq] at h
      rw [← h]

/-- The node at the end of a way has the schema at its end. -/
theorem schema_of_child? {n m : SchemaNode} {l : Label} (h : n.child? l = some m) :
    n.schema.child? l = some m.schema := by
  obtain ⟨k, schema⟩ := n
  cases schema with
  | reference target =>
      cases l with
      | items => cases h
      | additional => cases h
      | property name => cases h
      | _ => simp [child?, allOf, oneOf, anyOf] at h
  | inline keywords allOf oneOf anyOf properties items additional =>
      cases l with
      | items =>
          cases items with
          | none => cases h
          | some below =>
              cases h
              rfl
      | additional =>
          cases additional with
          | described below =>
              cases h
              rfl
          | _ => cases h
      | allOf index => exact schema_of_getElem?_listed h
      | oneOf index => exact schema_of_getElem?_listed h
      | anyOf index => exact schema_of_getElem?_listed h
      | property name =>
          have hmap : (findValue? name properties).map
              (fun schema => SchemaNode.mk ((k.child "properties").child name) schema) = some m :=
            (findValue?_map (fun name schema =>
              SchemaNode.mk ((k.child "properties").child name) schema) name properties).symm.trans
              h
          obtain ⟨schema, hschema, rfl⟩ := Option.map_eq_some_iff.mp hmap
          exact hschema

end SchemaNode

namespace Description

/-! ## What a description tells -/

/-- The schema nodes that a description tells. -/
inductive Told (d : Description) : SchemaNode → Prop
  | component {name : String} {n : SchemaNode} : (name, n) ∈ d.components → Told d n
  | reference {reference : String} {n : SchemaNode} : d.resolve? reference = some n → Told d n
  | parameter {es : List Endpoint} {e : Endpoint} {p : Parameter} :
      d.endpoints = .ok es → e ∈ es → p ∈ e.parameters → Told d p.schema
  | requestBody {es : List Endpoint} {e : Endpoint} {c : Content} {n : SchemaNode} :
      d.endpoints = .ok es → e ∈ es → c ∈ e.requestBody → c.schema = some n → Told d n
  | response {es : List Endpoint} {e : Endpoint} {entry : String × List Content} {c : Content}
      {n : SchemaNode} :
      d.endpoints = .ok es → e ∈ es → entry ∈ e.responses → c ∈ entry.2 → c.schema = some n →
      Told d n
  | child {n m : SchemaNode} : Told d n → m ∈ n.children → Told d m

/-! ## Where it is taken from -/

/-- The sites of the declared parameters of an operation, in the order in which they are read. -/
def declaredSites (path : String) (method : Method) (item : PathItem) (op : Operation) :
    List (ParameterSite × ParameterDecl) :=
  item.parameters.zipIdx.map (fun (p, index) => (.ofPath path index, p))
    ++ op.parameters.zipIdx.map fun (p, index) => (.ofOperation path method index, p)

/-- Where the declaration stands that a parameter is read from: the shared one if it is a
reference. -/
def parameterSource? (site : ParameterSite) (p : ParameterDecl) : Option ParameterSite :=
  match p.reference with
  | none => some site
  | some reference => (Pointer.componentName? reference "parameters").map .shared

/-- Where the declaration stands that a body is read from: the shared one if it is a reference. -/
def bodySource? (section_ : String) (shared : String → BodySite) (site : BodySite) (b : Body) :
    Option BodySite :=
  match b.reference with
  | none => some site
  | some reference => (Pointer.componentName? reference section_).map shared

/-- Where the schema of a parameter stands: it is its own, or that of the first content with one. -/
def parameterSeat? (d : Description) (site : ParameterSite) : Option Seat :=
  (d.parameterAt? site).bind fun p =>
    if p.schema.isSome then some (.parameterSchema site)
    else (p.contents.find? (·.schema.isSome)).map fun media =>
      .parameterContent site media.contentType

/-- A schema node and the place that it is taken from. -/
inductive Obtained (d : Description) : SchemaNode → Place → Prop
  | component {name : String} {n : SchemaNode} :
      (name, n) ∈ d.components → Obtained d n ⟨.component name, []⟩
  | reference {reference name : String} {n : SchemaNode} :
      Pointer.componentName? reference "schemas" = some name → d.resolve? reference = some n →
      Obtained d n ⟨.component name, []⟩
  | parameter {path : String} {method : Method} {item : PathItem} {op : Operation}
      {found : List Parameter} {index : Nat} {p : Parameter} {site source : ParameterSite}
      {decl : ParameterDecl} {seat : Seat} :
      findValue? path d.paths = some item → findValue? method.val item.operations = some op →
      ((declared (SchemaKey.child ⟨"#/paths"⟩ path) (operationKey path method) item op).mapM
        fun entry => d.parameter entry.1 entry.2) = .ok found →
      found[index]? = some p →
      (declaredSites path method item op)[index]? = some (site, decl) →
      parameterSource? site decl = some source → d.parameterSeat? source = some seat →
      Obtained d p.schema ⟨seat, []⟩
  | requestBody {path : String} {method : Method} {op : Operation} {b : Body}
      {found : List Content} {c : Content} {n : SchemaNode} {source : BodySite} :
      d.operation? path method = some op → op.requestBody = some b →
      d.requestBodyOf (operationKey path method) op = .ok found → c ∈ found →
      c.schema = some n →
      bodySource? "requestBodies" .sharedRequestBody (.requestBody path method) b = some source →
      Obtained d n ⟨.bodyContent source c.contentType, []⟩
  | response {path : String} {method : Method} {op : Operation} {status : String} {b : Body}
      {found : List (String × List Content)} {contents : List Content} {c : Content}
      {n : SchemaNode} {source : BodySite} :
      d.operation? path method = some op → findValue? status op.responses = some b →
      d.responsesOf (operationKey path method) op = .ok found → (status, contents) ∈ found →
      c ∈ contents → c.schema = some n →
      bodySource? "responses" .sharedResponse (.response path method status) b = some source →
      Obtained d n ⟨.bodyContent source c.contentType, []⟩
  | child {n m : SchemaNode} {p : Place} {l : Label} :
      Obtained d n p → n.child? l = some m → Obtained d m (p.below l)

variable {d : Description}

/-- A node stands at a place: it has the key of the place and the schema that stands there. -/
structure Stands (d : Description) (n : SchemaNode) (p : Place) : Prop where
  /-- The key is that of the place. -/
  key_eq : n.key = p.key
  /-- The schema stands at the place. -/
  schemaAt?_eq : d.schemaAt? p = some n.schema

theorem Stands.child {n m : SchemaNode} {p : Place} {l : Label} (h : d.Stands n p)
    (hc : n.child? l = some m) : d.Stands m (p.below l) := by
  constructor
  · rw [SchemaNode.key_of_child? hc, Place.key_below, h.key_eq]
  · rw [schemaAt?_below, h.schemaAt?_eq]
    exact SchemaNode.schema_of_child? hc

theorem Stands.of_seated? {n : SchemaNode} {seat : Seat} (hkey : n.key = seat.key)
    (hschema : d.seated? seat = some n.schema) : d.Stands n ⟨seat, []⟩ := by
  constructor
  · exact hkey
  · rw [schemaAt?, hschema]
    rfl

/-! ## Sites of a tidy description -/

section Sites

variable (hd : d.Tidy) {path : String} {method : Method}

include hd in
theorem tidy_of_operation? {op : Operation} (h : d.operation? path method = some op) : op.Tidy := by
  obtain ⟨item, hitem, hop⟩ := Option.bind_eq_some_iff.mp h
  exact (hd.paths _ (mem_of_findValue? hitem)).operations _ (mem_of_findValue? hop)

include hd in
theorem tidy_of_parameterAt? {site : ParameterSite} {p : ParameterDecl}
    (h : d.parameterAt? site = some p) : p.Tidy := by
  cases site with
  | shared name => exact hd.parameters _ (mem_of_findValue? h)
  | ofPath path index =>
      obtain ⟨item, hitem, hp⟩ := Option.bind_eq_some_iff.mp h
      exact (hd.paths _ (mem_of_findValue? hitem)).parameters p (List.mem_of_getElem? hp)
  | ofOperation path method index =>
      obtain ⟨op, hop, hp⟩ := Option.bind_eq_some_iff.mp h
      exact (tidy_of_operation? hd hop).parameters p (List.mem_of_getElem? hp)

include hd in
theorem tidy_of_bodyAt? {site : BodySite} {b : Body} (h : d.bodyAt? site = some b) : b.Tidy := by
  cases site with
  | sharedRequestBody name => exact hd.requestBodies _ (mem_of_findValue? h)
  | sharedResponse name => exact hd.responses _ (mem_of_findValue? h)
  | requestBody path method =>
      obtain ⟨op, hop, hb⟩ := Option.bind_eq_some_iff.mp h
      exact (tidy_of_operation? hd hop).requestBody b hb
  | response path method status =>
      obtain ⟨op, hop, hb⟩ := Option.bind_eq_some_iff.mp h
      exact (tidy_of_operation? hd hop).responses _ (mem_of_findValue? hb)

end Sites

/-- The schema of a content is found under its type. -/
theorem contentSchema?_of_mem {contents : List Media} (ht : TidyContents contents) {media : Media}
    (h : media ∈ contents) : contentSchema? contents media.contentType = media.schema := by
  rw [contentSchema?, ht.find?_eq h]
  rfl

/-! ## Parameters -/

/-- The first content with a schema. -/
theorem exists_media_of_findSome? {contents : List Media} {f : Media → Schema → SchemaNode}
    {n : SchemaNode}
    (h : (contents.findSome? fun media => media.schema.map (f media)) = some n) :
    ∃ media s, contents.find? (·.schema.isSome) = some media ∧ media ∈ contents ∧
      media.schema = some s ∧ n = f media s := by
  induction contents with
  | nil => cases h
  | cons media rest ih =>
      cases hs : media.schema with
      | some s =>
          rw [List.findSome?_cons, hs] at h
          cases h
          exact ⟨media, s, List.find?_cons_of_pos (by rw [hs]; rfl), List.mem_cons_self, hs, rfl⟩
      | none =>
          rw [List.findSome?_cons, hs] at h
          obtain ⟨found, s, hfind, hmem, hschema, hn⟩ := ih h
          refine ⟨found, s, ?_, List.mem_cons_of_mem _ hmem, hschema, hn⟩
          rw [List.find?_cons_of_neg (by rw [hs]; nofun)]
          exact hfind

/-- The schema of a parameter stands in its declaration. -/
theorem stands_of_parameterSchema? {site : ParameterSite} {p : ParameterDecl} {n : SchemaNode}
    (hat : d.parameterAt? site = some p) (ht : p.Tidy)
    (h : parameterSchema? site.key p = some n) :
    ∃ seat, d.parameterSeat? site = some seat ∧ d.Stands n ⟨seat, []⟩ := by
  unfold parameterSchema? at h
  cases hs : p.schema with
  | some s =>
      rw [hs] at h
      cases h
      refine ⟨.parameterSchema site, ?_, .of_seated? rfl ?_⟩
      · rw [parameterSeat?, hat, Option.bind_some, hs]
        rfl
      · rw [seated?, hat, Option.bind_some, hs]
  | none =>
      rw [hs] at h
      obtain ⟨media, s, hfind, hmem, hschema, rfl⟩ := exists_media_of_findSome? h
      refine ⟨.parameterContent site media.contentType, ?_, .of_seated? rfl ?_⟩
      · rw [parameterSeat?, hat, Option.bind_some, hs, hfind]
        rfl
      · rw [seated?, hat, Option.bind_some, contentSchema?_of_mem ht.contents hmem, hschema]

/-- **The schema of a parameter stands where its declaration says.** -/
theorem stands_of_parameter (hd : d.Tidy) {site : ParameterSite} {decl : ParameterDecl}
    {q : Parameter} (hat : d.parameterAt? site = some decl)
    (h : d.parameter site.key decl = .ok q) :
    ∃ source seat, parameterSource? site decl = some source ∧
      d.parameterSeat? source = some seat ∧ d.Stands q.schema ⟨seat, []⟩ := by
  have hread : ∀ {source : ParameterSite} {p : ParameterDecl}, d.parameterAt? source = some p →
      readParameter source.key p = .ok q →
      ∃ seat, d.parameterSeat? source = some seat ∧ d.Stands q.schema ⟨seat, []⟩ := by
    intro source p hat hread
    unfold readParameter at hread
    split at hread
    · split at hread
      · rename_i schema hschema
        cases hread
        exact stands_of_parameterSchema? hat (tidy_of_parameterAt? hd hat) hschema
      · cases hread
    · cases hread
  rcases d.parameter_cases site.key decl with ⟨_, _, _, heq⟩ | ⟨found, hfound, heq⟩
  · rw [heq] at h
    cases h
  · rw [heq] at h
    rcases hfound with ⟨hnone, rfl⟩ | ⟨reference, hreference, hf⟩
    · obtain ⟨seat, hseat, hstands⟩ := hread hat h
      exact ⟨site, seat, by rw [parameterSource?, hnone], hseat, hstands⟩
    · obtain ⟨name, hname, hshared, _, hkey⟩ := parameter?_eq_some_iff.mp hf
      rw [hkey] at h
      obtain ⟨seat, hseat, hstands⟩ := hread (show d.parameterAt? (.shared name) = _ from hshared) h
      refine ⟨.shared name, seat, ?_, hseat, hstands⟩
      rw [parameterSource?, hreference]
      exact congrArg (Option.map ParameterSite.shared) hname

/-! ## Request bodies and responses -/

/-- **The schemas of contents stand where the declaration of the body says.** -/
theorem stands_of_contents (hd : d.Tidy) {section_ : String} {bodies : List (String × Body)}
    {shared : String → BodySite}
    (hshared : ∀ name, (shared name).key = (sectionKey section_).child name ∧
      d.bodyAt? (shared name) = findValue? name bodies)
    {site : BodySite} {b : Body} (hat : d.bodyAt? site = some b) {found : List Content}
    (h : d.contents section_ bodies site.key b = .ok found) :
    ∃ source, bodySource? section_ shared site b = some source ∧
      ∀ c ∈ found, ∀ n, c.schema = some n → d.Stands n ⟨.bodyContent source c.contentType, []⟩ := by
  have hcontents : ∀ {source : BodySite} {b : Body}, d.bodyAt? source = some b →
      ∀ c ∈ contentsAt source.key b, ∀ n, c.schema = some n →
        d.Stands n ⟨.bodyContent source c.contentType, []⟩ := by
    intro source b hat c hc n hn
    obtain ⟨media, hmem, rfl⟩ := List.mem_map.mp hc
    obtain ⟨schema, hschema, rfl⟩ := Option.map_eq_some_iff.mp hn
    refine .of_seated? rfl ?_
    rw [seated?, hat, Option.bind_some, contentSchema?_of_mem (tidy_of_bodyAt? hd hat) hmem]
    exact hschema
  rcases d.contents_cases section_ bodies site.key b with ⟨_, _, _, heq⟩ | ⟨target, htarget, heq⟩
  · rw [heq] at h
    cases h
  · rw [heq] at h
    cases h
    rcases htarget with ⟨hnone, rfl⟩ | ⟨reference, hreference, hf⟩
    · exact ⟨site, by rw [bodySource?, hnone], hcontents hat⟩
    · obtain ⟨name, hname, hfind, _, hkey⟩ := body?_eq_some_iff.mp hf
      obtain ⟨hsharedKey, hsharedAt⟩ := hshared name
      refine ⟨shared name, ?_, ?_⟩
      · rw [bodySource?, hreference]
        exact congrArg (Option.map shared) hname
      · rw [hkey, ← hsharedKey]
        exact hcontents (hsharedAt.trans hfind)

/-! ## Declared parameters -/

section Declared

variable {path : String} {method : Method} {item : PathItem} {op : Operation}

/-- The keys of declared parameters are those of their sites. -/
theorem declared_eq :
    declared (SchemaKey.child ⟨"#/paths"⟩ path) (operationKey path method) item op
      = (declaredSites path method item op).map fun entry => (entry.1.key, entry.2) := by
  simp only [declared, declaredSites, List.map_append, List.map_map]
  rfl

/-- What is declared stands at its site. -/
theorem parameterAt?_of_mem_declaredSites (hitem : findValue? path d.paths = some item)
    (hop : findValue? method.val item.operations = some op) {site : ParameterSite}
    {decl : ParameterDecl} (h : (site, decl) ∈ declaredSites path method item op) :
    d.parameterAt? site = some decl := by
  rcases List.mem_append.mp h with h | h
  · obtain ⟨⟨p, index⟩, hmem, heq⟩ := List.mem_map.mp h
    cases heq
    rw [parameterAt?, hitem]
    exact List.mk_mem_zipIdx_iff_getElem?.mp hmem
  · obtain ⟨⟨p, index⟩, hmem, heq⟩ := List.mem_map.mp h
    cases heq
    rw [parameterAt?, operation?, hitem, Option.bind_some, hop]
    exact List.mk_mem_zipIdx_iff_getElem?.mp hmem

/-- A parameter that is read is that of the site at the same position. -/
theorem exists_declaredSite {found : List Parameter}
    (h : ((declared (SchemaKey.child ⟨"#/paths"⟩ path) (operationKey path method) item op).mapM
      fun entry => d.parameter entry.1 entry.2) = .ok found)
    {index : Nat} {p : Parameter} (hp : found[index]? = some p) :
    ∃ site decl, (declaredSites path method item op)[index]? = some (site, decl) ∧
      d.parameter site.key decl = .ok p := by
  obtain ⟨entry, hentry, hread⟩ := exists_of_getElem?_forall₂ (mapM_eq_ok_iff.mp h) hp
  rw [declared_eq, List.getElem?_map] at hentry
  obtain ⟨⟨site, decl⟩, hsite, rfl⟩ := Option.map_eq_some_iff.mp hentry
  exact ⟨site, decl, hsite, hread⟩

end Declared

/-! ## Nodes that are told -/

section Tidy

variable (hd : d.Tidy) {n : SchemaNode}

include hd

theorem stands_of_requestBody {path : String} {method : Method} {op : Operation} {b : Body}
    (hop : d.operation? path method = some op) (hb : op.requestBody = some b)
    {found : List Content} (h : d.requestBodyOf (operationKey path method) op = .ok found) :
    ∃ source,
      bodySource? "requestBodies" .sharedRequestBody (.requestBody path method) b = some source ∧
      ∀ c ∈ found, ∀ n, c.schema = some n → d.Stands n ⟨.bodyContent source c.contentType, []⟩ := by
  rw [requestBodyOf, hb] at h
  refine stands_of_contents hd (fun _ => ⟨rfl, rfl⟩) ?_ h
  rw [bodyAt?, hop]
  exact hb

theorem stands_of_response {path : String} {method : Method} {op : Operation}
    (hop : d.operation? path method = some op) {found : List (String × List Content)}
    (h : d.responsesOf (operationKey path method) op = .ok found) {status : String}
    {contents : List Content} (hmem : (status, contents) ∈ found) :
    ∃ b source, findValue? status op.responses = some b ∧
      bodySource? "responses" .sharedResponse (.response path method status) b = some source ∧
      ∀ c ∈ contents, ∀ n, c.schema = some n →
        d.Stands n ⟨.bodyContent source c.contentType, []⟩ := by
  obtain ⟨⟨status', b⟩, hb, hread⟩ := exists_of_mem_mapM h hmem
  obtain ⟨contents', hcontents, heq⟩ := exists_of_bind_ok hread
  cases heq
  have hfind := findValue?_of_mem (tidy_of_operation? hd hop).nodup hb
  have hat : d.bodyAt? (.response path method status) = some b := by
    rw [bodyAt?, hop]
    exact hfind
  have hshared : ∀ name,
      (BodySite.sharedResponse name).key = (sectionKey "responses").child name ∧
      d.bodyAt? (.sharedResponse name) = findValue? name d.responses := fun _ => ⟨rfl, rfl⟩
  obtain ⟨source, hsource, hstands⟩ := stands_of_contents hd hshared hat hcontents
  exact ⟨b, source, hfind, hsource, hstands⟩

/-- **A node stands where it is taken from.** -/
theorem Obtained.stands {p : Place} (h : d.Obtained n p) : d.Stands n p := by
  induction h with
  | component hmem =>
      obtain ⟨entry, hentry, heq⟩ := List.mem_map.mp hmem
      cases heq
      exact .of_seated? rfl (findValue?_of_mem hd.nodup_schemas hentry)
  | reference hname hresolve =>
      rw [resolve?, hname] at hresolve
      obtain ⟨schema, hschema, heq⟩ := Option.bind_eq_some_iff.mp
        (show (findValue? _ d.schemas).bind _ = some _ from hresolve)
      cases heq
      exact .of_seated? rfl hschema
  | parameter hitem hop hfound hp hsite hsource hseat =>
      obtain ⟨site, decl, hsite', hread⟩ := exists_declaredSite hfound hp
      cases hsite.symm.trans hsite'
      have hat := parameterAt?_of_mem_declaredSites hitem hop (List.mem_of_getElem? hsite)
      obtain ⟨source, seat, hsource', hseat', hstands⟩ := stands_of_parameter hd hat hread
      cases hsource.symm.trans hsource'
      cases hseat.symm.trans hseat'
      exact hstands
  | requestBody hop hb hfound hc hn hsource =>
      obtain ⟨source, hsource', hstands⟩ := stands_of_requestBody hd hop hb hfound
      cases hsource.symm.trans hsource'
      exact hstands _ hc _ hn
  | response hop hb hfound hmem hc hn hsource =>
      obtain ⟨b, source, hb', hsource', hstands⟩ := stands_of_response hd hop hfound hmem
      cases hb.symm.trans hb'
      cases hsource.symm.trans hsource'
      exact hstands _ hc _ hn
  | child _ hc ih => exact ih.child hc

/-- Every operation that is told is that of a path and a method. -/
theorem exists_method_of_endpoints {es : List Endpoint} {e : Endpoint} (h : d.endpoints = .ok es)
    (he : e ∈ es) :
    ∃ (path : String) (method : Method) (item : PathItem) (op : Operation),
      findValue? path d.paths = some item ∧ findValue? method.val item.operations = some op ∧
      d.operation? path method = some op ∧ d.Tells path item method.val op e := by
  obtain ⟨path, item, method, op, hitem, hmethod, hop, hendpoint⟩ :=
    exists_operation_of_endpoints hd h he
  refine ⟨path, ⟨method, hmethod⟩, item, op, hitem, hop, ?_, endpoint_ok_iff.mp hendpoint⟩
  rw [operation?, hitem]
  exact hop

/-- **Every node that is told is taken from a place.** -/
theorem Told.exists_obtained (h : d.Told n) : n.schema.Tidy ∧ ∃ p, d.Obtained n p := by
  -- Tidiness is carried along: by it, what is below a node is at the end of a way.
  induction h with
  | component hmem => exact ⟨(isRoot_of_mem_components hd hmem).inPlace.tidy hd, _, .component hmem⟩
  | reference hresolve =>
      obtain ⟨name, hname, hfound⟩ := Option.bind_eq_some_iff.mp hresolve
      obtain ⟨schema, hschema, heq⟩ := Option.bind_eq_some_iff.mp hfound
      cases heq
      exact ⟨hd.schemas _ (mem_of_findValue? hschema), _, .reference hname hresolve⟩
  | parameter hes he hp =>
      have huses := endpointUses_of_endpoints hd hes he
      refine ⟨(huses.parameters _ hp).isRoot.inPlace.tidy hd, ?_⟩
      obtain ⟨path, method, item, op, hitem, hop, _, htells⟩ := exists_method_of_endpoints hd hes he
      obtain ⟨found, hfound, hmerged⟩ := exists_of_bind_ok htells.parameters
      rw [← Except.ok.inj hmerged] at hp
      have hmem := (mem_of_mem_foldl_mergeParameter hp).resolve_left List.not_mem_nil
      obtain ⟨index, hindex⟩ := List.getElem?_of_mem hmem
      obtain ⟨site, decl, hsite, hread⟩ :=
        exists_declaredSite hfound hindex
      have hat := parameterAt?_of_mem_declaredSites hitem hop (List.mem_of_getElem? hsite)
      obtain ⟨source, seat, hsource, hseat, _⟩ := stands_of_parameter hd hat hread
      exact ⟨_, .parameter hitem hop hfound hindex hsite hsource hseat⟩
  | requestBody hes he hc hn =>
      have huses := endpointUses_of_endpoints hd hes he
      refine ⟨(huses.requestBody _ hc _ hn).isRoot.inPlace.tidy hd, ?_⟩
      obtain ⟨path, method, item, op, _, _, hoperation, htells⟩ :=
        exists_method_of_endpoints hd hes he
      have hfound := htells.requestBody
      cases hb : op.requestBody with
      | none =>
          rw [requestBodyOf, hb] at hfound
          rw [← Except.ok.inj hfound] at hc
          cases hc
      | some b =>
          obtain ⟨source, hsource, _⟩ := stands_of_requestBody hd hoperation hb hfound
          exact ⟨_, .requestBody hoperation hb hfound hc hn hsource⟩
  | response hes he hentry hc hn =>
      have huses := endpointUses_of_endpoints hd hes he
      refine ⟨(huses.responses _ hentry _ hc _ hn).isRoot.inPlace.tidy hd, ?_⟩
      obtain ⟨path, method, item, op, _, _, hoperation, htells⟩ :=
        exists_method_of_endpoints hd hes he
      obtain ⟨b, source, hb, hsource, _⟩ := stands_of_response hd hoperation htells.responses hentry
      exact ⟨_, .response hoperation hb htells.responses hentry hc hn hsource⟩
  | child _ hmem ih =>
      obtain ⟨htidy, p, hp⟩ := ih
      obtain ⟨l, hl⟩ := SchemaNode.child?_of_mem_children htidy hmem
      exact ⟨SchemaNode.tidy_of_child? htidy hl, _, hp.child hl⟩

end Tidy

end Description

/-- **A node and its key determine each other.** Every two nodes that a document tells are taken
from places, and wherever they are taken from, they are the schemas that stand there, and have the
same key if and only if they are taken from the same place. -/
theorem key_eq_iff_of_told {dialect : Dialect} {v : Value} {d : Description} (hv : v.Tidy)
    (hread : Description.ofValue dialect v = .ok d) {n m : SchemaNode} (hn : d.Told n)
    (hm : d.Told m) :
    (∃ p, d.Obtained n p) ∧ (∃ q, d.Obtained m q) ∧
    ∀ p q, d.Obtained n p → d.Obtained m q →
      d.schemaAt? p = some n.schema ∧ d.schemaAt? q = some m.schema ∧
      (n.key = m.key ↔ p = q) := by
  have hd := Description.tidy_of_ofValue hv hread
  refine ⟨(hn.exists_obtained hd).2, (hm.exists_obtained hd).2, fun p q hp hq => ?_⟩
  have hnp := hp.stands hd
  have hmq := hq.stands hd
  refine ⟨hnp.schemaAt?_eq, hmq.schemaAt?_eq, fun hkey => ?_, ?_⟩
  · exact Place.key_inj (hnp.key_eq.symm.trans (hkey.trans hmq.key_eq))
  · rintro rfl
    exact hnp.key_eq.trans hmq.key_eq.symm

/-- A document with a component whose name holds a slash, and one that is named like a pointer to
it. -/
def slashText : String :=
  "openapi: 3.1.0\ninfo:\n  title: a\n  version: b\ncomponents:\n  schemas:\n"
    ++ "    a/b:\n      type: string\n    a~1b:\n      type: string\n"

/-- Two references to the component have one key, and the other component has another one. -/
theorem key_eq_iff_of_slashText :
    ∃ v d n m k, Yaml.read? slashText = some v ∧ Description.ofValue .late v = .ok d ∧
      d.resolve? "#/components/schemas/a~1b" = some n ∧
      d.resolve? "#/components/schemas/a%2Fb" = some m ∧
      d.resolve? "#/components/schemas/a~01b" = some k ∧
      n.key = m.key ∧ ¬ n.key = k.key := by
  have hchars : slashText = String.ofList _ := Text.append_eq_ofList rfl rfl
  obtain ⟨v, hv, hfacts⟩ := Option.map_eq_some_iff.mp
    (show (Yaml.read? slashText).map (fun v => (Description.ofValue .late v).toOption.map fun d =>
        ["a~1b", "a%2Fb", "a~01b"].map fun name =>
          (d.resolve? ("#/components/schemas/" ++ name)).isSome)
        = some (some [true, true, true]) by
      rw [Yaml.read?_ofList hchars]
      decide +kernel)
  obtain ⟨d, hread, hsome⟩ := exists_of_map_toOption hfacts
  simp only [List.map_cons, List.map_nil, List.cons.injEq, and_true] at hsome
  obtain ⟨hn, hm, hk⟩ := hsome
  obtain ⟨n, hn⟩ := Option.isSome_iff_exists.mp hn
  obtain ⟨m, hm⟩ := Option.isSome_iff_exists.mp hm
  obtain ⟨k, hk⟩ := Option.isSome_iff_exists.mp hk
  have htidy := Yaml.tidy_of_read? hv
  have hobtained {reference name : String} {n : SchemaNode} (hn : d.resolve? reference = some n)
      (hname : Pointer.componentName? reference "schemas" = some name) :
      d.Obtained n ⟨.component name, []⟩ := .reference hname hn
  have hnb := hobtained hn (show _ = some "a/b" by decide +kernel)
  have hmb := hobtained hm (show _ = some "a/b" by decide +kernel)
  have hkb := hobtained hk (show _ = some "a~1b" by decide +kernel)
  have hsame := (key_eq_iff_of_told htidy hread (.reference hn) (.reference hm)).2.2 _ _ hnb hmb
  have hother := (key_eq_iff_of_told htidy hread (.reference hn) (.reference hk)).2.2 _ _ hnb hkb
  refine ⟨v, d, n, m, k, hv, hread, hn, hm, hk, hsame.2.2.mpr rfl, fun hkey => ?_⟩
  have hplaces := hother.2.2.mp hkey
  simp at hplaces

end ApiTypes
