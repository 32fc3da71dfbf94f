import ApiTypes.Proofs.Document.Tidy
import ApiTypes.Proofs.OpenApi.Endpoints
import ApiTypes.Proofs.OpenApi.Without

/-!
# References that are followed

Parameters, request bodies and responses may refer to shared ones. What is told of an operation is
what the declarations say that are read in the end: its own ones, or the shared ones one step along
a reference (`Description.Follows`). The operations of a description are known exactly if all these
steps can be taken and no path is a reference (`Description.endpoints_ok_iff`). Whether the shared
declaration may be a reference in its turn is a matter of the dialect. In the late one it may, and
is then read as it stands, without another step. In this dialect paths are never references either:
what a path says of one is not read at all (`Description.ofValue_withoutPathReferences`). Where all
shared declarations stand for themselves, no reference is dropped at an operation
(`followed_of_ofValue`).
-/

set_option autoImplicit false

namespace ApiTypes

namespace Description

/-! ## One step along a reference -/

section Follows

variable {α : Type} {referenceOf : α → Option String} {section_ : String}
  {shared : List (String × α)} {may may' : Option String → Prop} {key key' : SchemaKey} {a b : α}

/-- The declaration that is read for one that stands at a key: this one, or the shared one that its
reference leads to, if the reference of that one is allowed. -/
inductive Follows (referenceOf : α → Option String) (section_ : String)
    (shared : List (String × α)) (may : Option String → Prop) (key : SchemaKey) (a : α) :
    SchemaKey → α → Prop
  | own : referenceOf a = none → Follows referenceOf section_ shared may key a key a
  | shared {reference name : String} {b : α} : referenceOf a = some reference →
      Pointer.componentName? reference section_ = some name → findValue? name shared = some b →
      may (referenceOf b) →
      Follows referenceOf section_ shared may key a ((sectionKey section_).child name) b

theorem Follows.mono (h : Follows referenceOf section_ shared may key a key' b)
    (hmay : ∀ entry ∈ shared, may (referenceOf entry.2) → may' (referenceOf entry.2)) :
    Follows referenceOf section_ shared may' key a key' b := by
  cases h with
  | own hnone => exact .own hnone
  | shared hreference hname hfind hb =>
      exact .shared hreference hname hfind (hmay _ (mem_of_findValue? hfind) hb)

/-- What follows a step if one is taken at all. -/
theorem follows_iff {find : String → Option (SchemaKey × α)}
    (hfind : ∀ reference found, find reference = some found ↔
      ∃ name, Pointer.componentName? reference section_ = some name ∧
        findValue? name shared = some found.2 ∧ may (referenceOf found.2) ∧
        found.1 = (sectionKey section_).child name) :
    Follows referenceOf section_ shared may key a key' b ↔
      (referenceOf a = none ∧ (key', b) = (key, a)) ∨
      ∃ reference, referenceOf a = some reference ∧ find reference = some (key', b) := by
  constructor
  · intro h
    cases h with
    | own hnone => exact Or.inl ⟨hnone, rfl⟩
    | shared hreference hname hb hmay =>
        exact Or.inr ⟨_, hreference, (hfind _ _).mpr ⟨_, hname, hb, hmay, rfl⟩⟩
  · rintro (⟨hnone, heq⟩ | ⟨reference, hreference, hfound⟩)
    · cases heq
      exact .own hnone
    · obtain ⟨name, hname, hb, hmay, hkey⟩ := (hfind _ _).mp hfound
      obtain rfl : key' = (sectionKey section_).child name := hkey
      exact .shared hreference hname hb hmay

end Follows

/-! ## What is told of the operations -/

/-- What a parameter says that stands at a key. -/
structure Says (key : SchemaKey) (p : ParameterDecl) (q : Parameter) : Prop where
  /-- The name. -/
  name : p.name = some q.name
  /-- Where the parameter is in the request. -/
  location : p.location = some q.location
  /-- Whether the parameter is required. -/
  required : p.required = q.required
  /-- The schema. -/
  schema : parameterSchema? key p = some q.schema

section Reports

variable (d : Description) (may : Option String → Prop)

/-- A parameter says what the declaration says that is read for it. -/
def ParameterSays (key : SchemaKey) (p : ParameterDecl) (q : Parameter) : Prop :=
  ∃ key' p', Follows (·.reference) "parameters" d.parameters may key p key' p' ∧ Says key' p' q

/-- Contents are those of the declaration that is read for a body. -/
def ContentsOf (section_ : String) (bodies : List (String × Body)) (key : SchemaKey) (b : Body)
    (contents : List Content) : Prop :=
  ∃ key' b', Follows (·.reference) section_ bodies may key b key' b' ∧ contents = contentsAt key' b'

/-- What is told of an operation is what the declarations say that are read for its own. -/
structure Describes (path : String) (item : PathItem) (method : String) (op : Operation)
    (e : Endpoint) : Prop where
  /-- The path. -/
  path_eq : e.path = path
  /-- The method. -/
  method_eq : e.method = method
  /-- The identifier. -/
  operationId_eq : e.operationId = op.operationId
  /-- Whether the operation is deprecated. -/
  deprecated_eq : e.deprecated = op.deprecated
  /-- The parameters. -/
  parameters : ∃ found,
    List.Forall₂ (fun entry => d.ParameterSays may entry.1 entry.2)
      (declared (SchemaKey.child ⟨"#/paths"⟩ path) ((SchemaKey.child ⟨"#/paths"⟩ path).child method)
        item op) found ∧
    e.parameters = found.foldl (fun merged p => mergeParameter p merged) []
  /-- No request body has no contents. -/
  noRequestBody : op.requestBody = none → e.requestBody = []
  /-- The contents of the request body. -/
  requestBody : ∀ b, op.requestBody = some b →
    ContentsOf may "requestBodies" d.requestBodies
      (((SchemaKey.child ⟨"#/paths"⟩ path).child method).child "requestBody") b e.requestBody
  /-- The contents of the responses. -/
  responses : List.Forall₂
    (fun entry told => told.1 = entry.1 ∧
      ContentsOf may "responses" d.responses
        ((((SchemaKey.child ⟨"#/paths"⟩ path).child method).child "responses").child entry.1)
        entry.2 told.2)
    op.responses e.responses

/-- The operations of a path in the order in which they are told. -/
def operationsOf (item : PathItem) : List (String × Operation) :=
  methods.filterMap fun method => (findValue? method item.operations).map fun op => (method, op)

/-- What is told of all operations: no path is a reference, and each operation is told as its
declarations say. -/
def Reports (es : List Endpoint) : Prop :=
  ∃ found, es = found.flatten ∧
    List.Forall₂
      (fun entry told => entry.2.reference = none ∧
        List.Forall₂ (fun operation => d.Describes may entry.1 entry.2 operation.1 operation.2)
          (operationsOf entry.2) told)
      d.paths found

end Reports

variable {d : Description} {may may' : Option String → Prop}

/-! ## Which shared declarations may be read -/

/-- A reference, or none, of a shared parameter, request body or response. -/
inductive SharedReference (d : Description) : Option String → Prop
  | parameter {entry : String × ParameterDecl} :
      entry ∈ d.parameters → SharedReference d entry.2.reference
  | requestBody {entry : String × Body} :
      entry ∈ d.requestBodies → SharedReference d entry.2.reference
  | response {entry : String × Body} :
      entry ∈ d.responses → SharedReference d entry.2.reference

/-- All shared declarations stand for themselves. -/
def Direct (d : Description) : Prop :=
  ∀ reference, d.SharedReference reference → reference = none

theorem Describes.mono {path method : String} {item : PathItem} {op : Operation} {e : Endpoint}
    (h : d.Describes may path item method op e)
    (hmay : ∀ reference, d.SharedReference reference → may reference → may' reference) :
    d.Describes may' path item method op e where
  path_eq := h.path_eq
  method_eq := h.method_eq
  operationId_eq := h.operationId_eq
  deprecated_eq := h.deprecated_eq
  parameters := by
    obtain ⟨found, hfound, hmerged⟩ := h.parameters
    refine ⟨found, hfound.imp ?_, hmerged⟩
    rintro entry q ⟨key, p, hfollows, hsays⟩
    exact ⟨key, p, hfollows.mono fun _ hmem => hmay _ (.parameter hmem), hsays⟩
  noRequestBody := h.noRequestBody
  requestBody := by
    intro b hb
    obtain ⟨key, b', hfollows, hcontents⟩ := h.requestBody b hb
    exact ⟨key, b', hfollows.mono fun _ hmem => hmay _ (.requestBody hmem), hcontents⟩
  responses := by
    refine h.responses.imp ?_
    rintro entry told ⟨hstatus, key, b, hfollows, hcontents⟩
    exact ⟨hstatus, key, b, hfollows.mono fun _ hmem => hmay _ (.response hmem), hcontents⟩

theorem Reports.mono {es : List Endpoint} (h : d.Reports may es)
    (hmay : ∀ reference, d.SharedReference reference → may reference → may' reference) :
    d.Reports may' es := by
  obtain ⟨found, hflat, hfound⟩ := h
  refine ⟨found, hflat, hfound.imp ?_⟩
  rintro entry told ⟨hnone, htold⟩
  exact ⟨hnone, htold.imp fun _ _ hdescribes => hdescribes.mono hmay⟩

/-! ## Reading is following -/

/-- Whether a shared declaration may be read. -/
abbrev MayRead (d : Description) (reference : Option String) : Prop :=
  d.mayFollow reference = true

theorem mayRead_iff {reference : Option String} :
    d.MayRead reference ↔ d.dialect = .late ∨ reference = none := by
  unfold MayRead mayFollow
  cases d.dialect with
  | early => simp
  | late => simp

theorem follows_body_iff {section_ : String} {bodies : List (String × Body)} {key key' : SchemaKey}
    {b b' : Body} :
    Follows (·.reference) section_ bodies d.MayRead key b key' b' ↔
      (b.reference = none ∧ (key', b') = (key, b)) ∨
      ∃ reference, b.reference = some reference ∧
        d.body? section_ bodies reference = some (key', b') :=
  follows_iff fun _ _ => body?_eq_some_iff

theorem follows_parameter_iff {key key' : SchemaKey} {p p' : ParameterDecl} :
    Follows (·.reference) "parameters" d.parameters d.MayRead key p key' p' ↔
      (p.reference = none ∧ (key', p') = (key, p)) ∨
      ∃ reference, p.reference = some reference ∧ d.parameter? reference = some (key', p') :=
  follows_iff fun _ _ => parameter?_eq_some_iff

/-- Contents are known where the step can be taken. -/
theorem contents_ok_iff {section_ : String} {bodies : List (String × Body)} {key : SchemaKey}
    {b : Body} {contents : List Content} :
    d.contents section_ bodies key b = .ok contents ↔
      ContentsOf d.MayRead section_ bodies key b contents := by
  unfold ContentsOf
  simp only [follows_body_iff]
  constructor
  · intro h
    rcases d.contents_cases section_ bodies key b with ⟨_, _, _, heq⟩ | ⟨found, hfound, heq⟩
    · rw [heq] at h
      cases h
    · rw [heq] at h
      cases h
      exact ⟨found.1, found.2, hfound, rfl⟩
  · rintro ⟨key', b', ⟨hnone, heq⟩ | ⟨reference, hreference, hfound⟩, rfl⟩
    · cases heq
      rw [Description.contents, hnone]
      rfl
    · rw [Description.contents, hreference]
      simp only [hfound]
      rfl

theorem readParameter_ok_iff {key : SchemaKey} {p : ParameterDecl} {q : Parameter} :
    readParameter key p = .ok q ↔ Says key p q := by
  constructor
  · intro h
    unfold readParameter at h
    split at h
    · rename_i name location hname hlocation
      split at h
      · rename_i schema hschema
        cases h
        exact ⟨hname, hlocation, rfl, hschema⟩
      · cases h
    · cases h
  · rintro ⟨hname, hlocation, hrequired, hschema⟩
    simp only [readParameter, hname, hlocation, hschema, hrequired]

/-- A parameter is known where the step can be taken and leads to one. -/
theorem parameter_ok_iff {key : SchemaKey} {p : ParameterDecl} {q : Parameter} :
    d.parameter key p = .ok q ↔ d.ParameterSays d.MayRead key p q := by
  unfold ParameterSays
  simp only [follows_parameter_iff, ← readParameter_ok_iff]
  constructor
  · intro h
    rcases d.parameter_cases key p with ⟨_, _, _, heq⟩ | ⟨found, hfound, heq⟩
    · rw [heq] at h
      cases h
    · exact ⟨found.1, found.2, hfound, heq.symm.trans h⟩
  · rintro ⟨key', p', ⟨hnone, heq⟩ | ⟨reference, hreference, hfound⟩, hread⟩
    · cases heq
      rw [← hread, Description.parameter, hnone]
      rfl
    · rw [← hread, Description.parameter, hreference]
      simp only [hfound]
      rfl

section Operation

variable {path method : String} {item : PathItem} {op : Operation} {e : Endpoint}

theorem parametersOf_ok_iff {pathKey operationKey : SchemaKey} {merged : List Parameter} :
    d.parametersOf pathKey operationKey item op = .ok merged ↔
      ∃ found, List.Forall₂ (fun entry => d.ParameterSays d.MayRead entry.1 entry.2)
        (declared pathKey operationKey item op) found ∧
        merged = found.foldl (fun merged p => mergeParameter p merged) [] := by
  have hloop {found : List Parameter} :
      (declared pathKey operationKey item op).mapM (fun entry => d.parameter entry.1 entry.2)
          = .ok found ↔ _ :=
    mapM_ok_iff_forall₂ fun _ _ => parameter_ok_iff
  constructor
  · intro h
    obtain ⟨found, hfound, hmerged⟩ := exists_of_bind_ok h
    exact ⟨found, hloop.mp hfound, (Except.ok.inj hmerged).symm⟩
  · rintro ⟨found, hfound, rfl⟩
    exact bind_ok_of_ok (hloop.mpr hfound) rfl

theorem responsesOf_ok_iff {operationKey : SchemaKey} {told : List (String × List Content)} :
    d.responsesOf operationKey op = .ok told ↔
      List.Forall₂ (fun entry told => told.1 = entry.1 ∧
        ContentsOf d.MayRead "responses" d.responses
          ((operationKey.child "responses").child entry.1) entry.2 told.2)
        op.responses told := by
  refine mapM_ok_iff_forall₂ fun entry told => ?_
  obtain ⟨status, b⟩ := entry
  rw [← contents_ok_iff]
  constructor
  · intro h
    obtain ⟨contents, hcontents, heq⟩ := exists_of_bind_ok h
    cases heq
    exact ⟨rfl, hcontents⟩
  · rintro ⟨hstatus, hcontents⟩
    obtain ⟨_, contents⟩ := told
    obtain rfl : _ = status := hstatus
    exact bind_ok_of_ok hcontents rfl

/-- An operation is known where all steps can be taken. -/
theorem endpoint_ok_iff_describes :
    d.endpoint path item method op = .ok e ↔ d.Describes d.MayRead path item method op e := by
  rw [endpoint_ok_iff]
  constructor
  · intro h
    refine ⟨h.path_eq, h.method_eq, h.operationId_eq, h.deprecated_eq,
      parametersOf_ok_iff.mp h.parameters, fun hnone => ?_, fun b hb => ?_,
      responsesOf_ok_iff.mp h.responses⟩
    · have hbody := h.requestBody
      rw [requestBodyOf, hnone] at hbody
      exact (Except.ok.inj hbody).symm
    · have hbody := h.requestBody
      rw [requestBodyOf, hb] at hbody
      exact contents_ok_iff.mp hbody
  · intro h
    refine ⟨h.path_eq, h.method_eq, h.operationId_eq, h.deprecated_eq,
      parametersOf_ok_iff.mpr h.parameters, ?_, responsesOf_ok_iff.mpr h.responses⟩
    cases hb : op.requestBody with
    | none =>
        rw [requestBodyOf, hb, h.noRequestBody hb]
    | some b =>
        rw [requestBodyOf, hb]
        exact contents_ok_iff.mpr (h.requestBody b hb)

end Operation

theorem pathEndpoints_ok_iff {path : String} {item : PathItem} {told : List Endpoint} :
    d.pathEndpoints path item = .ok told ↔
      item.reference = none ∧
        List.Forall₂ (fun operation => d.Describes d.MayRead path item operation.1 operation.2)
          (operationsOf item) told := by
  unfold pathEndpoints
  cases item.reference with
  | none =>
      refine Iff.trans ?_ (and_iff_right rfl).symm
      exact mapM_ok_iff_forall₂ fun operation _ => endpoint_ok_iff_describes
  | some reference => exact ⟨nofun, fun h => absurd h.1 nofun⟩

/-- **The operations are known where all steps can be taken and no path is a reference.** -/
theorem endpoints_ok_iff {es : List Endpoint} :
    d.endpoints = .ok es ↔ d.Reports d.MayRead es := by
  have hloop {found : List (List Endpoint)} :
      (d.paths.mapM fun entry => d.pathEndpoints entry.1 entry.2) = .ok found ↔ _ :=
    mapM_ok_iff_forall₂ fun _ _ => pathEndpoints_ok_iff
  constructor
  · intro h
    obtain ⟨found, hfound, hflat⟩ := exists_of_bind_ok h
    exact ⟨found, (Except.ok.inj hflat).symm, hloop.mp hfound⟩
  · rintro ⟨found, rfl, hfound⟩
    exact bind_ok_of_ok (hloop.mpr hfound) rfl

end Description

/-! ## References of paths -/

namespace Value

/-- An object with something put in the place of each of its members. -/
def mapMembers (f : Value → Value) : Value → Value
  | object members => object (members.map fun entry => (entry.1, f entry.2))
  | v => v

/-- A document without the references of its paths. -/
def withoutPathReferences : Value → Value := mapPaths (mapMembers (withoutMember "$ref"))

end Value

theorem findValue?_filter_ne {α : Type} {name other : String} (hne : ¬ other = name)
    (entries : List (String × α)) :
    findValue? other (entries.filter fun entry => entry.1 ≠ name) = findValue? other entries := by
  induction entries with
  | nil => rfl
  | cons entry rest ih =>
      by_cases hname : entry.1 = name
      · have hother : ¬ entry.1 = other := fun h => hne (h.symm.trans hname)
        rw [List.filter_cons_of_neg (by simp [hname]), ih]
        simp only [findValue?, if_neg hother]
      · rw [List.filter_cons_of_pos (by simp [hname])]
        simp only [findValue?, ih]

namespace Version31

/-- A path is read as it is without the reference. -/
theorem pathItem?_withoutMember (v : Value) :
    pathItem? (v.withoutMember "$ref") = pathItem? v := by
  cases v with
  | object members =>
      have hothers : ∀ other, ¬ other = "$ref" →
          findValue? other (members.filter fun entry => entry.1 ≠ "$ref")
            = findValue? other members :=
        fun _ hne => findValue?_filter_ne hne members
      unfold pathItem?
      simp only [Value.withoutMember, Value.record?_object, Option.bind_eq_bind, Option.bind_some]
      rw [Record.orElse?_eq (hothers "parameters" (by decide))]
      refine congrArg (Option.bind _) (funext fun parameters => ?_)
      refine congrArg (Option.bind · _) (mapM_congr_option fun method hmethod => ?_)
      have hne : ¬ method = "$ref" := by
        rintro rfl
        revert hmethod
        decide
      rw [Record.optional?_eq (hothers method hne)]
  | _ => rfl

/-- The paths are read as they are without their references. -/
theorem replaces_withoutReferences :
    Record.Replaces (Value.mapMembers (Value.withoutMember "$ref")) id paths? where
  nil := rfl
  read_eq := by
    intro v found h
    cases v with
    | object members =>
        refine Eq.trans ?_ h
        simp only [Value.mapMembers, paths?, Value.members?, Option.bind_eq_bind, Option.bind_some]
        clear h
        induction members with
        | nil => rfl
        | cons entry rest ih =>
            rw [List.map_cons, List.filter_cons, List.filter_cons]
            split
            · rw [List.mapM_cons, List.mapM_cons, ih, pathItem?_withoutMember]
            · exact ih
    | _ => cases h

theorem reference_of_pathItem? {v : Value} {item : PathItem} (h : pathItem? v = some item) :
    item.reference = none := by
  unfold pathItem? at h
  simp only [Option.bind_eq_bind, Option.bind_eq_some_iff] at h
  obtain ⟨_, _, _, _, _, _, heq⟩ := h
  cases heq
  rfl

theorem reference_of_paths? {v : Value} {found : List (String × PathItem)}
    (h : paths? v = some found) : ∀ entry ∈ found, entry.2.reference = none := by
  obtain ⟨members, _, h⟩ := Option.bind_eq_some_iff.mp h
  intro entry hentry
  obtain ⟨⟨path, w⟩, _, hread⟩ := exists_of_mem_mapM_option h hentry
  obtain ⟨item, hitem, rfl⟩ := Option.map_eq_some_iff.mp hread
  exact reference_of_pathItem? hitem

/-- No path is a reference in the late dialect. -/
theorem reference_of_description {v : Value} {d : Description} (h : description v = .ok d) :
    d.dialect = .late ∧ ∀ entry ∈ d.paths, entry.2.reference = none := by
  obtain ⟨shared, root, _, _, _, _, _, _, hpaths, hdialect⟩ := description_ok_iff.mp h
  refine ⟨hdialect, ?_⟩
  unfold Record.orElse? at hpaths
  split at hpaths
  · exact reference_of_paths? hpaths
  · rw [← Option.some.inj hpaths]
    exact fun entry hentry => absurd hentry List.not_mem_nil

end Version31

namespace Description

variable {dialect : Dialect} {v : Value} {d : Description}

theorem dialect_of_ofValue (h : ofValue dialect v = .ok d) : d.dialect = dialect := by
  cases dialect with
  | late => exact (Version31.reference_of_description h).1
  | early =>
      unfold ofValue at h
      simp only at h
      split at h
      · rename_i d' hd
        cases h
        unfold Version30.description? at hd
        simp only [Option.bind_eq_bind, Option.bind_eq_some_iff] at hd
        obtain ⟨_, _, _, _, _, _, _, _, _, _, _, _, heq⟩ := hd
        cases heq
        rfl
      · cases h

/-- In the late dialect, a document is read as it is without the references of its paths. -/
theorem ofValue_withoutPathReferences (h : ofValue .late v = .ok d) :
    ofValue .late v.withoutPathReferences = .ok d := by
  cases v with
  | object members => exact ofValue_mapPaths Version31.replaces_withoutReferences h
  | _ => exact h

end Description

/-- **Which references are followed.** The operations of a document are known exactly if no path is
a reference and every parameter, request body and response of an operation stands for itself or
refers to a shared one, which may itself be a reference in the late dialect and may not in the early
one; they are then what these declarations say. So if no shared declaration is a reference, no
reference is dropped. In the late dialect no path is a reference, since the references of paths are
not read: without them the document is the same. -/
theorem followed_of_ofValue {dialect : Dialect} {v : Value} {d : Description}
    (h : Description.ofValue dialect v = .ok d) :
    (∀ es, d.endpoints = .ok es ↔
      d.Reports (fun reference => dialect = .late ∨ reference = none) es) ∧
    (dialect = .early ∨ d.Direct → ∀ es, d.endpoints = .ok es ↔ d.Reports (· = none) es) ∧
    (dialect = .late → (∀ entry ∈ d.paths, entry.2.reference = none) ∧
      Description.ofValue .late v.withoutPathReferences = .ok d) := by
  have hknown : ∀ es, d.endpoints = .ok es ↔
      d.Reports (fun reference => dialect = .late ∨ reference = none) es := by
    intro es
    rw [← Description.dialect_of_ofValue h, Description.endpoints_ok_iff]
    exact ⟨fun hes => hes.mono fun _ _ => Description.mayRead_iff.mp,
      fun hes => hes.mono fun _ _ => Description.mayRead_iff.mpr⟩
  refine ⟨hknown, fun hdirect es => (hknown es).trans ⟨fun hes => ?_, fun hes => ?_⟩, ?_⟩
  · refine hes.mono fun reference hshared hmay => ?_
    rcases hmay with rfl | hnone
    · exact hdirect.resolve_left nofun reference hshared
    · exact hnone
  · exact hes.mono fun reference _ hnone => Or.inr hnone
  · rintro rfl
    exact ⟨(Version31.reference_of_description h).2, Description.ofValue_withoutPathReferences h⟩

/-- A document with a path that refers to something that is not there. -/
def goneReference : Value :=
  .object [("openapi", .str "3.1.0"),
    ("info", .object [("title", .str "a"), ("version", .str "b")]),
    ("paths", .object [("/a", .object [("$ref", .str "#/components/pathItems/Gone")])])]

/-- The same document with an empty path. -/
def emptyPath : Value :=
  .object [("openapi", .str "3.1.0"),
    ("info", .object [("title", .str "a"), ("version", .str "b")]),
    ("paths", .object [("/a", .object [])])]

/-- The reference is not followed: both documents say the same, and no operation is told. -/
theorem followed_of_goneReference :
    ∃ d, Description.ofValue .late goneReference = .ok d ∧
      Description.ofValue .late emptyPath = .ok d ∧ d.endpoints = .ok [] ∧
      d.Reports (fun reference => Dialect.late = .late ∨ reference = none) [] := by
  obtain ⟨d, hd, hnone⟩ := exists_of_map_toOption
    (show (Description.ofValue .late goneReference).toOption.map (fun d =>
        d.endpoints.toOption.map (·.isEmpty)) = some (some true) by decide +kernel)
  obtain ⟨es, hes, hempty⟩ := exists_of_map_toOption hnone
  obtain rfl := List.isEmpty_iff.mp hempty
  obtain ⟨hknown, _, hlate⟩ := followed_of_ofValue hd
  exact ⟨d, hd, (hlate rfl).2, hes, (hknown []).mp hes⟩

end ApiTypes
