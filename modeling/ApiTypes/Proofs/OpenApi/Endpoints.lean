import ApiTypes.Proofs.Document.Loops
import ApiTypes.Proofs.OpenApi.Place

/-!
# The schemas of operations

The schemas that operations refer to are in place, in no other schema, and no components, whether
they stand in the operation itself, in its path, or in a section of the components
(`Description.endpointUses_of_endpoints`).
-/

set_option autoImplicit false

namespace ApiTypes

namespace Description

variable (d : Description)

/-- A key that does not lead into the schemas of the components. -/
def Apart (key : SchemaKey) : Prop :=
  ∀ rest, ¬ ["#", "components", "schemas"] <+: key.segments ++ rest

/-- A parameter that stands at a key. -/
structure ParameterAt (key : SchemaKey) (p : ParameterDecl) : Prop where
  /-- It is tidy. -/
  tidy : p.Tidy
  /-- It is not in the schemas of the components. -/
  apart : Apart key
  /-- Segments after the key lead into it. -/
  root?_eq : ∀ rest, d.root? (key.segments ++ rest) = parameterRoot? key p rest

/-- A request body or a response that stands at a key. -/
structure BodyAt (key : SchemaKey) (b : Body) : Prop where
  /-- It is tidy. -/
  tidy : b.Tidy
  /-- It is not in the schemas of the components. -/
  apart : Apart key
  /-- Segments after the key lead into it. -/
  root?_eq : ∀ rest, d.root? (key.segments ++ rest) = bodyRoot? key b rest

/-- An operation that stands at a key. -/
structure OperationAt (key : SchemaKey) (op : Operation) : Prop where
  /-- It is tidy. -/
  tidy : op.Tidy
  /-- It is not in the schemas of the components. -/
  apart : Apart key
  /-- Segments after the key lead into it. -/
  root?_eq : ∀ rest, d.root? (key.segments ++ rest) = operationRoot? key op rest

/-- A node that is in no other schema and is no component. -/
structure IsUse (n : SchemaNode) : Prop where
  /-- It is in no other schema. -/
  isRoot : d.IsRoot n
  /-- It is no component. -/
  key_ne : ∀ name, ¬ n.key = SchemaKey.component name

variable {d} {key : SchemaKey}

theorem Apart.child (h : Apart key) (name : String) : Apart (key.child name) := by
  intro rest
  rw [SchemaKey.segments_child, List.append_assoc]
  exact h _

theorem Apart.item (h : Apart key) (index : Nat) : Apart (key.item index) := h.child _

theorem Apart.key_ne (h : Apart key) (name : String) : ¬ key = SchemaKey.component name := by
  rintro rfl
  refine h [] ⟨[name], ?_⟩
  rw [SchemaKey.segments_component]
  rfl

/-! ## Schemas of parameters and contents -/

theorem segments_mediaKey (key : SchemaKey) (type : String) :
    (mediaKey key type).segments = key.segments ++ ["content", type, "schema"] := by
  simp only [mediaKey, SchemaKey.segments_child, List.append_assoc]
  rfl

theorem contentRoot?_of_mem {contents : List Media} (ht : TidyContents contents) {media : Media}
    (hm : media ∈ contents) {s : Schema} (hs : media.schema = some s) :
    contentRoot? key contents [media.contentType, "schema"]
      = some (⟨mediaKey key media.contentType, s⟩, []) := by
  simp only [contentRoot?, ht.find?_eq hm, hs]
  rfl

theorem BodyAt.isUse {b : Body} (h : d.BodyAt key b) {media : Media} (hm : media ∈ b.contents)
    {s : Schema} (hs : media.schema = some s) :
    d.IsUse ⟨mediaKey key media.contentType, s⟩ := by
  refine ⟨?_, (((h.apart.child _).child _).child _).key_ne⟩
  rw [IsRoot, segments_mediaKey, h.root?_eq]
  exact contentRoot?_of_mem h.tidy hm hs

theorem ParameterAt.isUse {p : ParameterDecl} (h : d.ParameterAt key p) {n : SchemaNode}
    (hn : parameterSchema? key p = some n) : d.IsUse n := by
  unfold parameterSchema? at hn
  split at hn
  · rename_i s hs
    cases hn
    refine ⟨?_, (h.apart.child _).key_ne⟩
    rw [IsRoot, SchemaKey.segments_child, h.root?_eq]
    simp only [parameterRoot?, hs]
    rfl
  · obtain ⟨media, hm, hmedia⟩ := List.exists_of_findSome?_eq_some hn
    cases hs : media.schema with
    | none => simp [hs] at hmedia
    | some s =>
        rw [hs] at hmedia
        cases hmedia
        refine ⟨?_, (((h.apart.child _).child _).child _).key_ne⟩
        rw [IsRoot, segments_mediaKey, h.root?_eq]
        exact contentRoot?_of_mem h.tidy.contents hm hs

/-! ## What stands in the components -/

theorem apart_section {section_ : String} (hne : ¬ section_ = "schemas")
    (h : (sectionKey section_).segments = ["#", "components", section_]) :
    Apart (sectionKey section_) := by
  intro rest hprefix
  rw [h] at hprefix
  simp only [List.cons_append, List.nil_append, List.cons_prefix_cons] at hprefix
  exact hne hprefix.2.2.1.symm

theorem segments_sectionKey_parameters :
    (sectionKey "parameters").segments = ["#", "components", "parameters"] := by
  decide

theorem segments_sectionKey_requestBodies :
    (sectionKey "requestBodies").segments = ["#", "components", "requestBodies"] := by
  decide

theorem segments_sectionKey_responses :
    (sectionKey "responses").segments = ["#", "components", "responses"] := by
  decide

theorem parameterAt_component (hd : d.Tidy) {name : String} {p : ParameterDecl}
    (h : findValue? name d.parameters = some p) :
    d.ParameterAt ((sectionKey "parameters").child name) p := by
  refine ⟨hd.parameters _ (mem_of_findValue? h),
    (apart_section (by decide) segments_sectionKey_parameters).child _, fun rest => ?_⟩
  rw [SchemaKey.segments_child, segments_sectionKey_parameters]
  simp only [List.cons_append, List.nil_append, root?, h]

theorem bodyAt_requestBody (hd : d.Tidy) {name : String} {b : Body}
    (h : findValue? name d.requestBodies = some b) :
    d.BodyAt ((sectionKey "requestBodies").child name) b := by
  refine ⟨hd.requestBodies _ (mem_of_findValue? h),
    (apart_section (by decide) segments_sectionKey_requestBodies).child _, fun rest => ?_⟩
  rw [SchemaKey.segments_child, segments_sectionKey_requestBodies]
  simp only [List.cons_append, List.nil_append, root?, h]

theorem bodyAt_response (hd : d.Tidy) {name : String} {b : Body}
    (h : findValue? name d.responses = some b) :
    d.BodyAt ((sectionKey "responses").child name) b := by
  refine ⟨hd.responses _ (mem_of_findValue? h),
    (apart_section (by decide) segments_sectionKey_responses).child _, fun rest => ?_⟩
  rw [SchemaKey.segments_child, segments_sectionKey_responses]
  simp only [List.cons_append, List.nil_append, root?, h]

/-! ## What stands in a path -/

section Path

variable {path : String} {item : PathItem}

theorem segments_paths : SchemaKey.segments ⟨"#/paths"⟩ = ["#", "paths"] := by decide

theorem apart_paths : Apart ⟨"#/paths"⟩ := by
  intro rest hprefix
  rw [segments_paths] at hprefix
  simp only [List.cons_append, List.nil_append, List.cons_prefix_cons] at hprefix
  exact absurd hprefix.2.1 (by decide)

theorem root?_path (h : findValue? path d.paths = some item) (rest : List String) :
    d.root? ((SchemaKey.child ⟨"#/paths"⟩ path).segments ++ rest)
      = pathRoot? (SchemaKey.child ⟨"#/paths"⟩ path) item rest := by
  rw [SchemaKey.segments_child, segments_paths]
  simp only [List.cons_append, List.nil_append, root?, h]

theorem operationAt_path (hd : d.Tidy) (h : findValue? path d.paths = some item)
    {method : String} {op : Operation} (hm : method ∈ methods)
    (hop : findValue? method item.operations = some op) :
    d.OperationAt ((SchemaKey.child ⟨"#/paths"⟩ path).child method) op := by
  have hitem := hd.paths _ (mem_of_findValue? h)
  refine ⟨hitem.operations _ (mem_of_findValue? hop), (apart_paths.child _).child _,
    fun rest => ?_⟩
  have hne : ¬ method = "parameters" := by
    rintro rfl
    revert hm
    decide
  rw [SchemaKey.segments_child, List.append_assoc, root?_path h, List.singleton_append,
    pathRoot?_method hne, hop]

theorem parameterAt_path (hd : d.Tidy) (h : findValue? path d.paths = some item) {index : Nat}
    {p : ParameterDecl} (hp : item.parameters[index]? = some p) :
    d.ParameterAt (((SchemaKey.child ⟨"#/paths"⟩ path).child "parameters").item index) p := by
  have hitem := hd.paths _ (mem_of_findValue? h)
  refine ⟨hitem.parameters _ (List.mem_of_getElem? hp),
    ((apart_paths.child _).child _).item _, fun rest => ?_⟩
  rw [SchemaKey.segments_item, SchemaKey.segments_child, List.append_assoc, List.append_assoc,
    root?_path h]
  simp only [List.cons_append, List.nil_append, pathRoot?, positionOf_toString, hp]

end Path

/-! ## What stands in an operation -/

section Operation

variable {op : Operation}

theorem OperationAt.parameterAt (h : d.OperationAt key op) {index : Nat} {p : ParameterDecl}
    (hp : op.parameters[index]? = some p) :
    d.ParameterAt ((key.child "parameters").item index) p := by
  refine ⟨h.tidy.parameters _ (List.mem_of_getElem? hp), (h.apart.child _).item _,
    fun rest => ?_⟩
  rw [SchemaKey.segments_item, SchemaKey.segments_child, List.append_assoc, List.append_assoc,
    h.root?_eq]
  simp only [List.cons_append, List.nil_append, operationRoot?, positionOf_toString, hp]

theorem OperationAt.requestBodyAt (h : d.OperationAt key op) {b : Body}
    (hb : op.requestBody = some b) : d.BodyAt (key.child "requestBody") b := by
  refine ⟨h.tidy.requestBody b hb, h.apart.child _, fun rest => ?_⟩
  rw [SchemaKey.segments_child, List.append_assoc, h.root?_eq]
  simp only [List.cons_append, List.nil_append, operationRoot?, hb]

theorem OperationAt.responseAt (h : d.OperationAt key op) {status : String} {b : Body}
    (hb : (status, b) ∈ op.responses) : d.BodyAt ((key.child "responses").child status) b := by
  refine ⟨h.tidy.responses _ hb, (h.apart.child _).child _, fun rest => ?_⟩
  rw [SchemaKey.segments_child, SchemaKey.segments_child, List.append_assoc, List.append_assoc,
    h.root?_eq]
  simp only [List.cons_append, List.nil_append, operationRoot?,
    findValue?_of_mem h.tidy.nodup hb]

end Operation

/-! ## References to parameters and bodies -/

/-- The shared body that a reference leads to. -/
theorem body?_eq_some_iff {section_ : String} {bodies : List (String × Body)} {reference : String}
    {found : SchemaKey × Body} :
    d.body? section_ bodies reference = some found ↔
      ∃ name, Pointer.componentName? reference section_ = some name ∧
        findValue? name bodies = some found.2 ∧ d.mayFollow found.2.reference = true ∧
        found.1 = (sectionKey section_).child name := by
  unfold body?
  simp only [Option.bind_eq_bind, Option.bind_eq_some_iff]
  constructor
  · rintro ⟨name, hname, b, hb, hfound⟩
    split at hfound
    · rename_i hmay
      cases hfound
      exact ⟨name, hname, hb, hmay, rfl⟩
    · cases hfound
  · rintro ⟨name, hname, hb, hmay, hkey⟩
    refine ⟨name, hname, found.2, hb, ?_⟩
    rw [if_pos hmay, ← hkey]
    rfl

/-- The shared parameter that a reference leads to. -/
theorem parameter?_eq_some_iff {reference : String} {found : SchemaKey × ParameterDecl} :
    d.parameter? reference = some found ↔
      ∃ name, Pointer.componentName? reference "parameters" = some name ∧
        findValue? name d.parameters = some found.2 ∧ d.mayFollow found.2.reference = true ∧
        found.1 = (sectionKey "parameters").child name := by
  unfold parameter?
  simp only [Option.bind_eq_bind, Option.bind_eq_some_iff]
  constructor
  · rintro ⟨name, hname, p, hp, hfound⟩
    split at hfound
    · rename_i hmay
      cases hfound
      exact ⟨name, hname, hp, hmay, rfl⟩
    · cases hfound
  · rintro ⟨name, hname, hp, hmay, hkey⟩
    refine ⟨name, hname, found.2, hp, ?_⟩
    rw [if_pos hmay, ← hkey]
    rfl

theorem body?_at {section_ : String} {bodies : List (String × Body)}
    (hshared : ∀ name b, findValue? name bodies = some b →
      d.BodyAt ((sectionKey section_).child name) b) {reference : String}
    {found : SchemaKey × Body} (h : d.body? section_ bodies reference = some found) :
    d.BodyAt found.1 found.2 := by
  obtain ⟨name, _, hb, _, hkey⟩ := body?_eq_some_iff.mp h
  rw [hkey]
  exact hshared name found.2 hb

/-- The contents of a request body or a response that stands at a key. -/
def contentsAt (key : SchemaKey) (b : Body) : List Content :=
  b.contents.map fun media =>
    ⟨media.contentType, media.schema.map fun schema => ⟨mediaKey key media.contentType, schema⟩⟩

/-- Contents are read where their declaration is, or where the reference leads. -/
theorem contents_cases (d : Description) (section_ : String) (bodies : List (String × Body))
    (key : SchemaKey) (b : Body) :
    (∃ reference, b.reference = some reference ∧ d.body? section_ bodies reference = none ∧
      d.contents section_ bodies key b = .error (.unresolvableReference reference key.text)) ∨
    ∃ found, (b.reference = none ∧ found = (key, b) ∨
        ∃ reference, b.reference = some reference ∧
          d.body? section_ bodies reference = some found) ∧
      d.contents section_ bodies key b = .ok (contentsAt found.1 found.2) := by
  unfold contents
  cases hr : b.reference with
  | none => exact Or.inr ⟨(key, b), Or.inl ⟨rfl, rfl⟩, rfl⟩
  | some reference =>
      cases hf : d.body? section_ bodies reference with
      | none => exact Or.inl ⟨reference, rfl, hf, by simp only [hf]; rfl⟩
      | some found => exact Or.inr ⟨found, Or.inr ⟨reference, rfl, hf⟩, by simp only [hf]; rfl⟩

/-- The schemas of contents are in no other schema and no components. -/
theorem isUse_of_contents {section_ : String} {bodies : List (String × Body)}
    (hshared : ∀ name b, findValue? name bodies = some b →
      d.BodyAt ((sectionKey section_).child name) b) {body : Body} (hbody : d.BodyAt key body)
    {found : List Content} (h : d.contents section_ bodies key body = .ok found) {c : Content}
    (hc : c ∈ found) {n : SchemaNode} (hn : c.schema = some n) : d.IsUse n := by
  have hmedia : ∀ (key : SchemaKey) (b : Body), d.BodyAt key b → c ∈ contentsAt key b →
      d.IsUse n := by
    intro key b hb hmem
    obtain ⟨media, hm, rfl⟩ := List.mem_map.mp hmem
    obtain ⟨schema, hschema, rfl⟩ := Option.map_eq_some_iff.mp hn
    exact hb.isUse hm hschema
  rcases d.contents_cases section_ bodies key body with ⟨_, _, _, heq⟩ | ⟨target, htarget, heq⟩
  · rw [heq] at h
    cases h
  · rw [heq] at h
    cases h
    rcases htarget with ⟨_, rfl⟩ | ⟨reference, _, hf⟩
    · exact hmedia key body hbody hc
    · exact hmedia target.1 target.2 (body?_at hshared hf) hc

theorem parameter?_at (hd : d.Tidy) {reference : String} {found : SchemaKey × ParameterDecl}
    (h : d.parameter? reference = some found) : d.ParameterAt found.1 found.2 := by
  obtain ⟨name, _, hp, _, hkey⟩ := parameter?_eq_some_iff.mp h
  rw [hkey]
  exact parameterAt_component hd hp

/-- What a declaration without reference says. -/
def readParameter (key : SchemaKey) (p : ParameterDecl) : Except Error Parameter :=
  match p.name, p.location with
  | some name, some location =>
      match parameterSchema? key p with
      | some schema => .ok ⟨name, location, p.required, schema⟩
      | none => .error (.description (.parameterWithoutSchema name key.text))
  | _, _ => .error (.description (.parameterWithoutName key.text))

/-- A parameter is read where its declaration is, or where the reference leads. -/
theorem parameter_cases (d : Description) (key : SchemaKey) (p : ParameterDecl) :
    (∃ reference, p.reference = some reference ∧ d.parameter? reference = none ∧
      d.parameter key p = .error (.unresolvableReference reference key.text)) ∨
    ∃ found, (p.reference = none ∧ found = (key, p) ∨
        ∃ reference, p.reference = some reference ∧ d.parameter? reference = some found) ∧
      d.parameter key p = readParameter found.1 found.2 := by
  unfold parameter
  cases hr : p.reference with
  | none => exact Or.inr ⟨(key, p), Or.inl ⟨rfl, rfl⟩, rfl⟩
  | some reference =>
      cases hf : d.parameter? reference with
      | none => exact Or.inl ⟨reference, rfl, hf, by simp only [hf]; rfl⟩
      | some found => exact Or.inr ⟨found, Or.inr ⟨reference, rfl, hf⟩, by simp only [hf]; rfl⟩

theorem isUse_of_readParameter {p : ParameterDecl} (hp : d.ParameterAt key p) {q : Parameter}
    (h : readParameter key p = .ok q) : d.IsUse q.schema := by
  unfold readParameter at h
  split at h
  · split at h
    · rename_i schema hs
      cases h
      exact hp.isUse hs
    · cases h
  · cases h

/-- The schema of a parameter is in no other schema and no component. -/
theorem isUse_of_parameter (hd : d.Tidy) {p : ParameterDecl} (hp : d.ParameterAt key p)
    {q : Parameter} (h : d.parameter key p = .ok q) : d.IsUse q.schema := by
  rcases d.parameter_cases key p with ⟨_, _, _, heq⟩ | ⟨found, hfound, heq⟩
  · rw [heq] at h
    cases h
  · rw [heq] at h
    rcases hfound with ⟨_, rfl⟩ | ⟨reference, _, hf⟩
    · exact isUse_of_readParameter hp h
    · exact isUse_of_readParameter (parameter?_at hd hf) h

/-! ## Operations -/

theorem mem_of_mem_mergeParameter {p q : Parameter} {ps : List Parameter}
    (h : q ∈ mergeParameter p ps) : q = p ∨ q ∈ ps := by
  induction ps with
  | nil => exact Or.inl (List.mem_singleton.mp h)
  | cons first rest ih =>
      unfold mergeParameter at h
      split at h
      · rcases List.mem_cons.mp h with rfl | hr
        · exact Or.inl rfl
        · exact Or.inr (List.mem_cons_of_mem _ hr)
      · rcases List.mem_cons.mp h with rfl | hr
        · exact Or.inr List.mem_cons_self
        · rcases ih hr with rfl | hm
          · exact Or.inl rfl
          · exact Or.inr (List.mem_cons_of_mem _ hm)

theorem mem_of_mem_foldl_mergeParameter {q : Parameter} {found merged : List Parameter}
    (h : q ∈ found.foldl (fun merged p => mergeParameter p merged) merged) :
    q ∈ merged ∨ q ∈ found := by
  induction found generalizing merged with
  | nil => exact Or.inl h
  | cons p rest ih =>
      rcases ih h with hm | hr
      · rcases mem_of_mem_mergeParameter hm with rfl | hm
        · exact Or.inr List.mem_cons_self
        · exact Or.inl hm
      · exact Or.inr (List.mem_cons_of_mem _ hr)

theorem mem_declared {pathKey operationKey : SchemaKey} {item : PathItem} {op : Operation}
    {key : SchemaKey} {p : ParameterDecl}
    (h : (key, p) ∈ declared pathKey operationKey item op) :
    (∃ index, item.parameters[index]? = some p ∧ key = (pathKey.child "parameters").item index) ∨
    ∃ index, op.parameters[index]? = some p ∧
      key = (operationKey.child "parameters").item index := by
  unfold declared at h
  rcases List.mem_append.mp h with h | h
  · obtain ⟨⟨q, index⟩, hmem, heq⟩ := List.mem_map.mp h
    cases heq
    exact Or.inl ⟨index, List.mk_mem_zipIdx_iff_getElem?.mp hmem, rfl⟩
  · obtain ⟨⟨q, index⟩, hmem, heq⟩ := List.mem_map.mp h
    cases heq
    exact Or.inr ⟨index, List.mk_mem_zipIdx_iff_getElem?.mp hmem, rfl⟩

/-- The schemas of an operation are in no other schema and no components. -/
structure EndpointUses (d : Description) (e : Endpoint) : Prop where
  /-- Those of the parameters. -/
  parameters : ∀ p ∈ e.parameters, d.IsUse p.schema
  /-- Those of the request body. -/
  requestBody : ∀ c ∈ e.requestBody, ∀ n, c.schema = some n → d.IsUse n
  /-- Those of the responses. -/
  responses : ∀ entry ∈ e.responses, ∀ c ∈ entry.2, ∀ n, c.schema = some n → d.IsUse n

section Operation

variable {path method : String} {item : PathItem} {op : Operation}

theorem isUse_of_parametersOf (hd : d.Tidy) (hpath : findValue? path d.paths = some item)
    (hop : d.OperationAt key op) {found : List Parameter}
    (h : d.parametersOf (SchemaKey.child ⟨"#/paths"⟩ path) key item op = .ok found)
    {p : Parameter} (hp : p ∈ found) : d.IsUse p.schema := by
  unfold parametersOf at h
  obtain ⟨all, hall, h⟩ := exists_of_bind_ok h
  cases h
  have hmem : p ∈ all := by
    rcases mem_of_mem_foldl_mergeParameter hp with hnil | hmem
    · cases hnil
    · exact hmem
  obtain ⟨⟨key', decl⟩, hdecl, hparam⟩ := exists_of_mem_mapM hall hmem
  have hat : d.ParameterAt key' decl := by
    rcases mem_declared hdecl with ⟨index, hi, rfl⟩ | ⟨index, hi, rfl⟩
    · exact parameterAt_path hd hpath hi
    · exact hop.parameterAt hi
  exact isUse_of_parameter hd hat hparam

theorem isUse_of_requestBodyOf (hd : d.Tidy) (hop : d.OperationAt key op)
    {found : List Content} (h : d.requestBodyOf key op = .ok found) {c : Content}
    (hc : c ∈ found) {n : SchemaNode} (hn : c.schema = some n) : d.IsUse n := by
  unfold requestBodyOf at h
  split at h
  · cases h
    cases hc
  · rename_i b hb
    exact isUse_of_contents (fun _ _ => bodyAt_requestBody hd) (hop.requestBodyAt hb) h hc hn

theorem isUse_of_responsesOf (hd : d.Tidy) (hop : d.OperationAt key op)
    {found : List (String × List Content)} (h : d.responsesOf key op = .ok found)
    {entry : String × List Content} (hentry : entry ∈ found) {c : Content} (hc : c ∈ entry.2)
    {n : SchemaNode} (hn : c.schema = some n) : d.IsUse n := by
  unfold responsesOf at h
  obtain ⟨⟨status, b⟩, hmem, hcontents⟩ := exists_of_mem_mapM h hentry
  obtain ⟨contents, hok, heq⟩ := exists_of_bind_ok hcontents
  cases heq
  exact isUse_of_contents (fun _ _ => bodyAt_response hd) (hop.responseAt hmem) hok hc hn

end Operation

/-- What is told of an operation. -/
structure Tells (d : Description) (path : String) (item : PathItem) (method : String)
    (op : Operation) (e : Endpoint) : Prop where
  /-- The path. -/
  path_eq : e.path = path
  /-- The method. -/
  method_eq : e.method = method
  /-- The identifier. -/
  operationId_eq : e.operationId = op.operationId
  /-- Whether the operation is deprecated. -/
  deprecated_eq : e.deprecated = op.deprecated
  /-- The parameters. -/
  parameters : d.parametersOf (SchemaKey.child ⟨"#/paths"⟩ path)
    ((SchemaKey.child ⟨"#/paths"⟩ path).child method) item op = .ok e.parameters
  /-- The contents of the request body. -/
  requestBody : d.requestBodyOf ((SchemaKey.child ⟨"#/paths"⟩ path).child method) op
    = .ok e.requestBody
  /-- The contents of the responses. -/
  responses : d.responsesOf ((SchemaKey.child ⟨"#/paths"⟩ path).child method) op
    = .ok e.responses

section Operation

variable {path method : String} {item : PathItem} {op : Operation} {e : Endpoint}

/-- **In whichever order the parts of an operation are read, they have to be known, and nothing
else.** -/
theorem endpoint_ok_iff :
    d.endpoint path item method op = .ok e ↔ d.Tells path item method op e := by
  constructor
  · intro h
    unfold endpoint at h
    split at h
    · obtain ⟨responses, hr, h⟩ := exists_of_bind_ok h
      obtain ⟨parameters, hp, h⟩ := exists_of_bind_ok h
      obtain ⟨requestBody, hb, h⟩ := exists_of_bind_ok h
      cases h
      exact ⟨rfl, rfl, rfl, rfl, hp, hb, hr⟩
    · obtain ⟨requestBody, hb, h⟩ := exists_of_bind_ok h
      obtain ⟨responses, hr, h⟩ := exists_of_bind_ok h
      obtain ⟨parameters, hp, h⟩ := exists_of_bind_ok h
      cases h
      exact ⟨rfl, rfl, rfl, rfl, hp, hb, hr⟩
  · intro h
    obtain ⟨path', method', operationId, deprecated, parameters, requestBody, responses⟩ := e
    obtain ⟨rfl, rfl, rfl, rfl, hp, hb, hr⟩ := h
    unfold endpoint
    split
    · simp only [hr, hp, hb]
      rfl
    · simp only [hb, hr, hp]
      rfl

theorem endpointUses_of_endpoint (hd : d.Tidy) (hpath : findValue? path d.paths = some item)
    (hm : method ∈ methods) (hop : findValue? method item.operations = some op)
    (h : d.endpoint path item method op = .ok e) : d.EndpointUses e := by
  have hat := operationAt_path hd hpath hm hop
  have htells := endpoint_ok_iff.mp h
  exact ⟨fun p hp => isUse_of_parametersOf hd hpath hat htells.parameters hp,
    fun c hc n hn => isUse_of_requestBodyOf hd hat htells.requestBody hc hn,
    fun entry he c hc n hn => isUse_of_responsesOf hd hat htells.responses he hc hn⟩

/-- Every operation that is told is one of a path. -/
theorem exists_operation_of_endpoints (hd : d.Tidy) {es : List Endpoint}
    (h : d.endpoints = .ok es) (he : e ∈ es) :
    ∃ path item method op, findValue? path d.paths = some item ∧ method ∈ methods ∧
      findValue? method item.operations = some op ∧ d.endpoint path item method op = .ok e := by
  unfold endpoints at h
  obtain ⟨found, hfound, h⟩ := exists_of_bind_ok h
  cases h
  obtain ⟨ofPath, hofPath, hmem⟩ := List.mem_flatten.mp he
  obtain ⟨⟨path, item⟩, hpath, hitem⟩ := exists_of_mem_mapM hfound hofPath
  have hfind : findValue? path d.paths = some item := findValue?_of_mem hd.nodup_paths hpath
  simp only [pathEndpoints] at hitem
  split at hitem
  · cases hitem
  · obtain ⟨⟨method, op⟩, hop, hendpoint⟩ := exists_of_mem_mapM hitem hmem
    obtain ⟨method', hmethod, heq⟩ := List.mem_filterMap.mp hop
    obtain ⟨op', hf, heq⟩ := Option.map_eq_some_iff.mp heq
    cases heq
    exact ⟨path, item, method, op, hfind, hmethod, hf, hendpoint⟩

end Operation

/-- **The schemas of operations are in place and in no other schema.** -/
theorem endpointUses_of_endpoints (hd : d.Tidy) {es : List Endpoint}
    (h : d.endpoints = .ok es) {e : Endpoint} (he : e ∈ es) : d.EndpointUses e := by
  obtain ⟨path, item, method, op, hfind, hmethod, hf, hendpoint⟩ :=
    exists_operation_of_endpoints hd h he
  exact endpointUses_of_endpoint hd hfind hmethod hf hendpoint

end Description

end ApiTypes
