import ApiTypes.Proofs.Walk.Request

/-!
# What operations tell

A run tells of each operation its parameters and contents in their order, each with the answer for
its schema. `Walk.Ensures` is the rule for walks that keep an invariant and whose result satisfies a
condition; what every answer for a use satisfies, all entries of the operations satisfy
(`Resolver.ensures_resolveEndpoints`).
-/

set_option autoImplicit false

namespace ApiTypes

/-! ## Walks with an invariant -/

/-- A walk that keeps an invariant and tells what satisfies a condition, if it succeeds. -/
def Walk.Ensures {α : Type} (I : WalkState → Prop) (Q : α → Prop) (w : Walk α) : Prop :=
  ∀ (s : WalkState) (a : α) (s' : WalkState), w.outcome s = (.ok a, s') → I s → I s' ∧ Q a

namespace Walk.Ensures

variable {α β : Type} {I : WalkState → Prop} {Q : α → Prop} {Q' : β → Prop}

theorem pure {a : α} (h : Q a) : Ensures I Q (Pure.pure a : Walk α) := by
  intro s a' s' ho hs
  cases ho
  exact ⟨hs, h⟩

/-- What follows a walk may rely on what the walk ensures. -/
theorem bind {w : Walk α} {next : α → Walk β} (hw : Ensures I Q w)
    (hnext : ∀ a, Q a → Ensures I Q' (next a)) : Ensures I Q' (w >>= next) := by
  intro s b s' ho hs
  rw [Walk.outcome_bind] at ho
  cases hw' : w.outcome s with
  | mk told s₁ =>
      rw [hw'] at ho
      cases told with
      | error e => cases ho
      | ok a =>
          obtain ⟨hs₁, ha⟩ := hw s a s₁ hw' hs
          exact hnext a ha s₁ b s' ho hs₁

end Walk.Ensures

/-! ## Entries and their answers -/

section Entries

variable (P : String → Use → SchemaNode → Resolved → Prop)

/-- A parameter that is told with an answer for its schema. -/
structure Parameter.Told (path : String) (p : Parameter) (found : ResolvedParameter) : Prop where
  /-- The name is that of the parameter. -/
  name_eq : found.name = p.name
  /-- So is the location. -/
  location_eq : found.location = p.location
  /-- So is whether it is required. -/
  required_eq : found.required = p.required
  /-- The type and the annotations are an answer for its schema. -/
  answer : P path (.parameter p.name) p.schema ⟨found.type, found.annotations⟩

/-- A content that is told with an answer for its schema, if it has one. -/
structure Content.Told (path : String) (use : String → Use) (c : Content)
    (found : ResolvedContent) : Prop where
  /-- The content type is that of the content. -/
  contentType_eq : found.contentType = c.contentType
  /-- A content without schema has no type. -/
  nothing : c.schema = none → found.type = none
  /-- The type and the annotations are an answer for the schema. -/
  answer : ∀ n, c.schema = some n →
    ∃ id, found.type = some id ∧ P path (use c.contentType) n ⟨id, found.annotations⟩

/-- A response that is told with its contents. -/
structure Response.Told (path : String) (entry : String × List Content)
    (found : ResolvedResponse) : Prop where
  /-- The status is that of the response. -/
  status_eq : found.status = entry.1
  /-- The contents come in their order. -/
  contents : List.Forall₂ (Content.Told P path .response) entry.2 found.contents

/-- An operation that is told with all its entries. -/
structure Endpoint.Told (e : Endpoint) (found : ResolvedEndpoint) : Prop where
  /-- The path is that of the operation. -/
  path_eq : found.path = e.path
  /-- So is the method. -/
  method_eq : found.method = e.method
  /-- The parameters come in their order. -/
  parameters : List.Forall₂ (Parameter.Told P e.path) e.parameters found.parameters
  /-- So do the contents of the request body, which are used as schemas. -/
  requestBody : List.Forall₂ (Content.Told P e.path fun _ => .schema) e.requestBody
    found.requestBody
  /-- So do the responses. -/
  responses : List.Forall₂ (Response.Told P e.path) e.responses found.responses

end Entries

namespace Resolver

variable {r : Resolver} {I : WalkState → Prop} {P : String → Use → SchemaNode → Resolved → Prop}

section

variable (h : ∀ path use n name, Walk.Ensures I (P path use n) (r.resolveUse (some path) use n name))

include h in
theorem ensures_resolveParameters (path operation : String) (ps : List Parameter) :
    Walk.Ensures I (List.Forall₂ (Parameter.Told P path) ps)
      (r.resolveParameters path operation ps) := by
  induction ps with
  | nil => exact .pure .nil
  | cons p rest ih =>
      rw [resolveParameters]
      refine (h _ _ _ _).bind fun found hfound => ih.bind fun others hothers => .pure ?_
      exact .cons ⟨rfl, rfl, rfl, hfound⟩ hothers

include h in
theorem ensures_resolveContents (path name : String) (use : String → Use) (cs : List Content) :
    Walk.Ensures I (List.Forall₂ (Content.Told P path use) cs)
      (r.resolveContents path name use cs) := by
  induction cs with
  | nil => exact .pure .nil
  | cons c rest ih =>
      rw [resolveContents]
      have hrest : ∀ found : ResolvedContent, Content.Told P path use c found →
          Walk.Ensures I (List.Forall₂ (Content.Told P path use) (c :: rest))
            (r.resolveContents path name use rest >>= fun others => pure (found :: others)) :=
        fun found hfound => ih.bind fun others hothers => .pure (.cons hfound hothers)
      cases hc : c.schema with
      | none =>
          -- Nothing is asked for a content without schema.
          refine hrest ⟨c.contentType, none, []⟩ ⟨rfl, fun _ => rfl, fun n hn => ?_⟩
          rw [hc] at hn
          cases hn
      | some schema =>
          refine (h _ _ _ _).bind fun found hfound => ?_
          refine hrest ⟨c.contentType, some found.type, found.annotations⟩
            ⟨rfl, fun hnone => ?_, fun n hn => ?_⟩
          · rw [hc] at hnone
            cases hnone
          · rw [hc] at hn
            cases hn
            exact ⟨found.type, rfl, hfound⟩

include h in
theorem ensures_resolveResponses (path operation : String)
    (responses : List (String × List Content)) :
    Walk.Ensures I (List.Forall₂ (Response.Told P path) responses)
      (r.resolveResponses path operation responses) := by
  induction responses with
  | nil => exact .pure .nil
  | cons entry rest ih =>
      obtain ⟨status, contents⟩ := entry
      rw [resolveResponses]
      refine (ensures_resolveContents h _ _ _ _).bind fun found hfound =>
        ih.bind fun others hothers => .pure ?_
      exact .cons ⟨rfl, hfound⟩ hothers

include h in
theorem ensures_resolveEndpoint (e : Endpoint) :
    Walk.Ensures I (Endpoint.Told P e) (r.resolveEndpoint e) := by
  rw [resolveEndpoint]
  refine (ensures_resolveParameters h _ _ _).bind fun parameters hparameters => ?_
  refine (ensures_resolveContents h _ _ _ _).bind fun requestBody hrequestBody => ?_
  refine (ensures_resolveResponses h _ _ _).bind fun responses hresponses => .pure ?_
  exact ⟨rfl, rfl, hparameters, hrequestBody, hresponses⟩

include h in
/-- **What every answer for a use satisfies, all entries of the operations satisfy.** The operations
are told in their order, but for those of paths that are left out. -/
theorem ensures_resolveEndpoints (es : List Endpoint) :
    Walk.Ensures I
      (List.Forall₂ (Endpoint.Told P) (es.filter fun e => !Lookup.isExcluded r.mappings e.path))
      (r.resolveEndpoints es) := by
  induction es with
  | nil => exact .pure .nil
  | cons e rest ih =>
      rw [resolveEndpoints, List.filter_cons]
      cases hx : Lookup.isExcluded r.mappings e.path with
      | true => exact ih
      | false =>
          refine (ensures_resolveEndpoint h e).bind fun found hfound =>
            ih.bind fun others hothers => .pure ?_
          exact .cons hfound hothers

/-- A run that succeeds tells the operations of its description, but for those of paths that are
left out. -/
theorem told_of_run
    (h : ∀ path use n name,
      Walk.Ensures (fun _ => True) (P path use n) (r.resolveUse (some path) use n name))
    {api : ResolvedApi} (hrun : r.run = .ok api) :
    ∃ es, r.description.endpoints = .ok es ∧
      List.Forall₂ (Endpoint.Told P) (es.filter fun e => !Lookup.isExcluded r.mappings e.path)
        api.endpoints := by
  have hcomponents : Walk.Ensures (fun _ => True) (fun _ => True)
      (r.resolveComponents r.description.components) := fun _ _ _ _ _ => ⟨trivial, trivial⟩
  have hread : Walk.Ensures (fun _ => True) (fun es => r.description.endpoints = .ok es)
      (Walk.ofExcept r.description.endpoints) := by
    intro s es s' ho _
    rw [Walk.outcome_ofExcept] at ho
    exact ⟨trivial, (Prod.mk.inj ho).1⟩
  have hall : Walk.Ensures (fun _ => True) (fun told => ∃ es, r.description.endpoints = .ok es ∧
      List.Forall₂ (Endpoint.Told P) (es.filter fun e => !Lookup.isExcluded r.mappings e.path)
        told.2) r.resolveAll := by
    refine hcomponents.bind fun _ _ => hread.bind fun es hes => ?_
    exact (ensures_resolveEndpoints h es).bind fun _ htold => .pure ⟨es, hes, htold⟩
  obtain ⟨s, hs, _⟩ := outcome_of_run hrun
  exact (hall {} _ s hs trivial).2

end

end Resolver

end ApiTypes
