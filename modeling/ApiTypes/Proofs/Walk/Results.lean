import ApiTypes.Proofs.Walk.Closed

/-!
# What a result mentions is there

A result mentions slots: in the types, for the components, and in the operations
(`ResolvedApi.Mentions`). Every part of the walk that succeeds keeps all slots filled and tells of
slots that are there (`Walk.Tells`), so a result has no slot without a type and mentions no other
ones (`ResolvedApi.exists_get?_of_run`).
-/

set_option autoImplicit false

namespace ApiTypes

/-- A store that refers to slots that are there, each with a type. -/
structure TypeStore.Whole (s : TypeStore) : Prop where
  /-- It refers to slots that are there. -/
  closed : s.Closed
  /-- Each slot has a type. -/
  filled : ∀ i : Nat, i < s.size → (s.get? i).isSome = true

theorem TypeStore.Whole.empty : TypeStore.Whole {} where
  closed := TypeStore.Closed.empty
  filled i hi := absurd hi (Nat.not_lt_zero i)

/-- **A request that succeeds keeps the store whole and tells of a slot that is there.** -/
theorem Answered.whole {r : Resolver} {q : Request} {s s' : WalkState} {told : Resolved}
    (h : Answered r q s (.ok told) s') (hs : s.types.Whole) :
    s'.types.Whole ∧ (told.type : Nat) < s'.types.size := by
  obtain ⟨hclosed, htold⟩ := h.closed hs.closed
  refine ⟨⟨hclosed, fun i hi => ?_⟩, htold told rfl⟩
  by_cases hlt : i < s.types.size
  · rw [h.grows.get?_eq i hlt]
    exact hs.filled i hlt
  · exact h.filled rfl (Nat.le_of_not_lt hlt) hi

/-! ## Walks that tell of slots -/

/-- A walk that keeps a store whole and tells of slots that are there, if some slots were there
before. -/
def Walk.Tells {α : Type} (known : List Nat) (mentioned : α → List Nat) (w : Walk α) : Prop :=
  ∀ (s : WalkState) (a : α) (s' : WalkState), w.outcome s = (.ok a, s') → s.types.Whole →
    (∀ i ∈ known, i < s.types.size) →
    s'.types.Whole ∧ s.types.size ≤ s'.types.size ∧ ∀ i ∈ mentioned a, i < s'.types.size

namespace Walk.Tells

variable {α β : Type} {known : List Nat} {mentioned : α → List Nat}

theorem pure {a : α} (h : ∀ i ∈ mentioned a, i ∈ known) :
    Tells known mentioned (Pure.pure a : Walk α) := by
  intro s a' s' ho hs hknown
  cases ho
  exact ⟨hs, Nat.le_refl _, fun i hi => hknown i (h i hi)⟩

/-- What follows a walk may tell of what the walk told of. -/
theorem bind {mentioned' : β → List Nat} {w : Walk α} {next : α → Walk β}
    (hw : Tells known mentioned w)
    (hnext : ∀ a, Tells (mentioned a ++ known) mentioned' (next a)) :
    Tells known mentioned' (w >>= next) := by
  intro s b s' ho hs hknown
  rw [Walk.outcome_bind] at ho
  cases hw' : w.outcome s with
  | mk told s₁ =>
      rw [hw'] at ho
      cases told with
      | error e => cases ho
      | ok a =>
          obtain ⟨hs₁, hle₁, htold₁⟩ := hw s a s₁ hw' hs hknown
          have hknown₁ : ∀ i ∈ mentioned a ++ known, i < s₁.types.size := by
            intro i hi
            rcases List.mem_append.mp hi with hi | hi
            · exact htold₁ i hi
            · exact Nat.lt_of_lt_of_le (hknown i hi) hle₁
          obtain ⟨hs', hle, htold⟩ := hnext a s₁ b s' ho hs₁ hknown₁
          exact ⟨hs', Nat.le_trans hle₁ hle, htold⟩

/-- What does not touch the state and tells of nothing. -/
theorem ofExcept (result : Except Error α) :
    Tells known (fun _ => []) (Walk.ofExcept result) := by
  intro s a s' ho hs hknown
  rw [Walk.outcome_ofExcept] at ho
  cases ho
  exact ⟨hs, Nat.le_refl _, fun i hi => by cases hi⟩

end Walk.Tells

/-! ## What results mention -/

/-- The slots of a content. -/
def ResolvedContent.types (content : ResolvedContent) : List Nat := content.type.toList

/-- The slots of a response. -/
def ResolvedResponse.types (response : ResolvedResponse) : List Nat :=
  response.contents.flatMap ResolvedContent.types

/-- The slots of an operation: those of its parameters, its request body and its responses. -/
def ResolvedEndpoint.types (e : ResolvedEndpoint) : List Nat :=
  e.parameters.map ResolvedParameter.type ++ e.requestBody.flatMap ResolvedContent.types
    ++ e.responses.flatMap ResolvedResponse.types

/-- A result mentions a slot. -/
inductive ResolvedApi.Mentions (api : ResolvedApi) : Nat → Prop
  | slot {i j : Nat} {t : ModelType} :
      api.types.get? i = some t → j ∈ t.references → Mentions api j
  | model {name : String} {id : Nat} : (name, id) ∈ api.models → Mentions api id
  | parameter {e : ResolvedEndpoint} {p : ResolvedParameter} :
      e ∈ api.endpoints → p ∈ e.parameters → Mentions api p.type
  | requestBody {e : ResolvedEndpoint} {content : ResolvedContent} {id : Nat} :
      e ∈ api.endpoints → content ∈ e.requestBody → content.type = some id → Mentions api id
  | response {e : ResolvedEndpoint} {response : ResolvedResponse} {content : ResolvedContent}
      {id : Nat} :
      e ∈ api.endpoints → response ∈ e.responses → content ∈ response.contents →
      content.type = some id → Mentions api id

namespace ResolvedEndpoint

variable {e : ResolvedEndpoint}

theorem mem_types_parameter {p : ResolvedParameter} (h : p ∈ e.parameters) :
    p.type ∈ e.types :=
  List.mem_append_left _ (List.mem_append_left _ (List.mem_map_of_mem h))

theorem mem_types_requestBody {content : ResolvedContent} {id : Nat}
    (h : content ∈ e.requestBody) (hid : content.type = some id) : id ∈ e.types :=
  List.mem_append_left _ (List.mem_append_right _
    (List.mem_flatMap.mpr ⟨content, h, Option.mem_toList.mpr hid⟩))

theorem mem_types_response {response : ResolvedResponse} {content : ResolvedContent} {id : Nat}
    (h : response ∈ e.responses) (hcontent : content ∈ response.contents)
    (hid : content.type = some id) : id ∈ e.types := by
  have hresponse : id ∈ response.types :=
    List.mem_flatMap.mpr ⟨content, hcontent, Option.mem_toList.mpr hid⟩
  exact List.mem_append_right _ (List.mem_flatMap.mpr ⟨response, h, hresponse⟩)

end ResolvedEndpoint

namespace Resolver

variable {r : Resolver} {known : List Nat}

theorem tells_ask (q : Request) :
    Walk.Tells known (fun told : Resolved => [told.type]) (r.ask q) := by
  intro s told s' ho hs _
  have hans := answered_ask (r := r) q s
  rw [ho] at hans
  obtain ⟨hs', htold⟩ := hans.whole hs
  refine ⟨hs', hans.grows.size_le, fun i hi => ?_⟩
  rw [List.mem_singleton.mp hi]
  exact htold

theorem tells_resolveUse (path : Option String) (use : Use) (n : SchemaNode) (name : String) :
    Walk.Tells known (fun told : Resolved => [told.type]) (r.resolveUse path use n name) :=
  tells_ask (.use path use n name)

theorem tells_resolveComponents (components : List (String × SchemaNode)) :
    Walk.Tells known (List.map Prod.snd) (r.resolveComponents components) := by
  induction components generalizing known with
  | nil => exact .pure fun i hi => by cases hi
  | cons entry rest ih =>
      obtain ⟨name, n⟩ := entry
      -- A component is asked for, and of the answer nothing but the slot is used.
      have hask : r.resolveComponents ((name, n) :: rest)
          = r.ask (.component n name) >>= fun told =>
              r.resolveComponents rest >>= fun ids => Pure.pure ((name, told.type) :: ids) := by
        rw [resolveComponents, ask, bind_assoc]
        simp only [pure_bind]
      rw [hask]
      refine (tells_ask _).bind fun told => ih.bind fun ids => .pure fun i hi => ?_
      simp only [List.map_cons, List.mem_cons, List.mem_append] at hi ⊢
      tauto

theorem tells_resolveParameters (path operation : String) (ps : List Parameter) :
    Walk.Tells known (List.map ResolvedParameter.type)
      (r.resolveParameters path operation ps) := by
  induction ps generalizing known with
  | nil => exact .pure fun i hi => by cases hi
  | cons p rest ih =>
      rw [resolveParameters]
      refine (tells_resolveUse _ _ _ _).bind fun found => ih.bind fun others => .pure fun i hi => ?_
      simp only [List.map_cons, List.mem_cons, List.mem_append] at hi ⊢
      tauto

theorem tells_resolveContents (path name : String) (use : String → Use) (cs : List Content) :
    Walk.Tells known (List.flatMap ResolvedContent.types)
      (r.resolveContents path name use cs) := by
  induction cs generalizing known with
  | nil => exact .pure fun i hi => by cases hi
  | cons content rest ih =>
      rw [resolveContents]
      have hrest : ∀ (found : ResolvedContent) (known' : List Nat),
          (∀ i ∈ found.types, i ∈ known') →
          Walk.Tells known' (List.flatMap ResolvedContent.types)
            (r.resolveContents path name use rest >>= fun others => pure (found :: others)) := by
        intro found known' hfound
        refine ih.bind fun others => .pure fun i hi => ?_
        rcases List.mem_append.mp hi with hi | hi
        · exact List.mem_append_right _ (hfound i hi)
        · exact List.mem_append_left _ hi
      cases content.schema with
      | none => exact hrest ⟨content.contentType, none, []⟩ known fun i hi => by cases hi
      | some schema =>
          refine (tells_resolveUse _ _ _ _).bind fun found => ?_
          exact hrest ⟨content.contentType, some found.type, found.annotations⟩ _ fun i hi =>
            List.mem_append_left _ hi

theorem tells_resolveResponses (path operation : String)
    (found : List (String × List Content)) :
    Walk.Tells known (List.flatMap ResolvedResponse.types)
      (r.resolveResponses path operation found) := by
  induction found generalizing known with
  | nil => exact .pure fun i hi => by cases hi
  | cons entry rest ih =>
      obtain ⟨status, contents⟩ := entry
      rw [resolveResponses]
      refine (tells_resolveContents _ _ _ _).bind fun found =>
        ih.bind fun others => .pure fun i hi => ?_
      simp only [List.flatMap_cons, List.mem_append, ResolvedResponse.types] at hi ⊢
      tauto

theorem tells_resolveEndpoint (e : Endpoint) :
    Walk.Tells known ResolvedEndpoint.types (r.resolveEndpoint e) := by
  rw [resolveEndpoint]
  refine (tells_resolveParameters _ _ _).bind fun parameters =>
    (tells_resolveContents _ _ _ _).bind fun requestBody =>
      (tells_resolveResponses _ _ _).bind fun responses => .pure fun i hi => ?_
  simp only [ResolvedEndpoint.types, List.mem_append] at hi ⊢
  tauto

theorem tells_resolveEndpoints (es : List Endpoint) :
    Walk.Tells known (List.flatMap ResolvedEndpoint.types) (r.resolveEndpoints es) := by
  induction es generalizing known with
  | nil => exact .pure fun i hi => by cases hi
  | cons e rest ih =>
      rw [resolveEndpoints]
      split
      · exact ih
      · refine (tells_resolveEndpoint e).bind fun found =>
          ih.bind fun others => .pure fun i hi => ?_
        simp only [List.flatMap_cons, List.mem_append] at hi ⊢
        tauto

theorem tells_resolveAll :
    Walk.Tells known (fun found : List (String × TypeId) × List ResolvedEndpoint =>
      found.1.map Prod.snd ++ found.2.flatMap ResolvedEndpoint.types) r.resolveAll := by
  rw [resolveAll]
  refine (tells_resolveComponents _).bind fun models =>
    (Walk.Tells.ofExcept _).bind fun es =>
      (tells_resolveEndpoints es).bind fun resolved => .pure fun i hi => ?_
  simp only [List.mem_append] at hi ⊢
  tauto

end Resolver

/-- **A result has no slot without a type, and every slot that it mentions has one.** -/
theorem ResolvedApi.exists_get?_of_run {r : Resolver} {api : ResolvedApi} (h : r.run = .ok api) :
    (∀ i : Nat, i < api.types.size → ∃ t, api.types.get? i = some t) ∧
    ∀ j, api.Mentions j → j < api.types.size ∧ ∃ t, api.types.get? j = some t := by
  obtain ⟨s, ho, htypes⟩ := Resolver.outcome_of_run h
  obtain ⟨hwhole, _, htold⟩ := @Resolver.tells_resolveAll r [] {} _ s ho TypeStore.Whole.empty
    fun i hi => by cases hi
  rw [← htypes] at hwhole htold
  have hendpoint : ∀ {e : ResolvedEndpoint} {id : Nat}, e ∈ api.endpoints → id ∈ e.types →
      id < api.types.size := fun he hid =>
    htold _ (List.mem_append_right _ (List.mem_flatMap.mpr ⟨_, he, hid⟩))
  have hfilled : ∀ i : Nat, i < api.types.size → ∃ t, api.types.get? i = some t :=
    fun i hi => Option.isSome_iff_exists.mp (hwhole.filled i hi)
  have hlt : ∀ j, api.Mentions j → j < api.types.size := by
    intro j hj
    cases hj with
    | slot ht hmem => exact hwhole.closed.references_lt _ _ ht _ hmem
    | model hmem => exact htold _ (List.mem_append_left _ (List.mem_map_of_mem hmem))
    | parameter he hp => exact hendpoint he (ResolvedEndpoint.mem_types_parameter hp)
    | requestBody he hc hid => exact hendpoint he (ResolvedEndpoint.mem_types_requestBody hc hid)
    | response he hr hc hid => exact hendpoint he (ResolvedEndpoint.mem_types_response hr hc hid)
  exact ⟨hfilled, fun j hj => ⟨hlt j hj, hfilled j (hlt j hj)⟩⟩

/-- A reference to the schema of a pet. -/
def petReference : Schema := .reference "#/components/schemas/Pet"

/-- A pet, which has friends under their names. -/
def petSchema : Schema :=
  .inline {} [] [] []
    [("friends", .inline { type := some "object" } [] [] [] [] none (.described petReference))]
    none .none

/-- A request body and a response that are a pet and an array of pets. -/
def petOperation : Operation where
  requestBody := some { contents := [⟨"application/json", some petReference⟩] }
  responses := [("200", { contents := [⟨"application/json",
    some (.inline { type := some "array" } [] [] [] [] (some petReference) .none)⟩] })]

/-- A description of pets with an operation. -/
def petDescription : Description where
  dialect := .early
  version := "3.0.0"
  schemas := [("Pet", petSchema)]
  paths := [("/pets", { operations := [("post", petOperation)] })]

/-- The array of the response is there with a type, and so are all other slots. -/
theorem exists_get?_of_petDescription :
    ∃ api, (Resolver.mk petDescription {}).run = .ok api ∧
      (∀ i : Nat, i < api.types.size → ∃ t, api.types.get? i = some t) ∧
      api.Mentions 2 ∧ 2 < api.types.size ∧ ∃ t, api.types.get? (2 : Nat) = some t := by
  have hfound : (Resolver.mk petDescription {}).run.toOption.map (fun api =>
      api.endpoints.flatMap fun e => e.responses.flatMap fun response =>
        response.contents.flatMap ResolvedContent.types) = some [2] := by decide +kernel
  cases hrun : (Resolver.mk petDescription {}).run with
  | error e =>
      rw [hrun] at hfound
      cases hfound
  | ok api =>
      rw [hrun] at hfound
      obtain ⟨hfilled, hmentions⟩ := ResolvedApi.exists_get?_of_run hrun
      have htypes : (api.endpoints.flatMap fun e => e.responses.flatMap fun response =>
          response.contents.flatMap ResolvedContent.types) = [2] := Option.some.inj hfound
      have hmem : (2 : Nat) ∈ api.endpoints.flatMap fun e => e.responses.flatMap fun response =>
          response.contents.flatMap ResolvedContent.types := by
        rw [htypes]
        exact List.mem_singleton_self 2
      obtain ⟨e, he, hmem⟩ := List.mem_flatMap.mp hmem
      obtain ⟨response, hresponse, hmem⟩ := List.mem_flatMap.mp hmem
      obtain ⟨content, hcontent, hid⟩ := List.mem_flatMap.mp hmem
      have hmention : api.Mentions 2 :=
        .response he hresponse hcontent (Option.mem_toList.mp hid)
      exact ⟨api, rfl, hfilled, hmention, hmentions 2 hmention⟩

end ApiTypes
