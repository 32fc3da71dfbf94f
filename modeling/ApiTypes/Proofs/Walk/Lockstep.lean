import ApiTypes.Proofs.Walk.Twins

/-!
# Operations in two stores

Two walks go alongside if from related states they tell the same but for slots, and leave related
states behind (`Alongside`). Whatever the relation is, the walks over operations go alongside if the
requests that they are made of do (`Resolver.alongside_resolveEndpoints`).

Walks go in lockstep if they go alongside in twins (`Lockstep`). Requests go in lockstep with
themselves, and so do the walks over operations (`Resolver.lockstep_resolveEndpoints`).
-/

set_option autoImplicit false

namespace ApiTypes

/-! ## What is told for other slots -/

/-- A parameter for other slots. -/
def ResolvedParameter.renamed (σ : Nat → Nat) (p : ResolvedParameter) : ResolvedParameter :=
  { p with type := σ p.type }

/-- A content for other slots. -/
def ResolvedContent.renamed (σ : Nat → Nat) (content : ResolvedContent) : ResolvedContent :=
  { content with type := content.type.map fun id : Nat => σ id }

/-- A response for other slots. -/
def ResolvedResponse.renamed (σ : Nat → Nat) (response : ResolvedResponse) : ResolvedResponse :=
  { response with contents := response.contents.map (·.renamed σ) }

/-- An operation for other slots. -/
def ResolvedEndpoint.renamed (σ : Nat → Nat) (e : ResolvedEndpoint) : ResolvedEndpoint :=
  { e with
    parameters := e.parameters.map (·.renamed σ)
    requestBody := e.requestBody.map (·.renamed σ)
    responses := e.responses.map (·.renamed σ) }

/-! For the same slots the same is told. -/

theorem ResolvedParameter.renamed_id : renamed id = id := rfl

theorem ResolvedContent.renamed_id : renamed id = id := by
  funext content
  obtain ⟨contentType, type, annotations⟩ := content
  cases type with
  | none => rfl
  | some slot => rfl

theorem ResolvedResponse.renamed_id : renamed id = id := by
  funext response
  rw [renamed, ResolvedContent.renamed_id, List.map_id]
  rfl

theorem ResolvedEndpoint.renamed_id : renamed id = id := by
  funext e
  rw [renamed, ResolvedParameter.renamed_id, ResolvedContent.renamed_id,
    ResolvedResponse.renamed_id, List.map_id, List.map_id, List.map_id]
  rfl

/-! ## Walks that go alongside -/

/-- Walks that from related states tell the same but for what a function does to it, and leave
related states behind. -/
def Alongside {α β : Type} (T : WalkState → WalkState → Prop) (f : α → β) (w : Walk α)
    (w' : Walk β) : Prop :=
  ∀ (s s' : WalkState) (out : Except Error α) (s₁ : WalkState), T s s' →
    w.outcome s = (out, s₁) → ∃ s₁', w'.outcome s' = (out.map f, s₁') ∧ T s₁ s₁'

namespace Alongside

variable {α β γ δ : Type} {T : WalkState → WalkState → Prop}

theorem pure (f : α → β) (a : α) :
    Alongside T f (Pure.pure a : Walk α) (Pure.pure (f a) : Walk β) := by
  intro s s' out s₁ ht h
  cases h
  exact ⟨s', rfl, ht⟩

/-- Walks that follow walks that go alongside. -/
theorem bind {f : α → β} {g : γ → δ} {w : Walk α} {w' : Walk β} {next : α → Walk γ}
    {next' : β → Walk δ} (hw : Alongside T f w w')
    (hnext : ∀ a, Alongside T g (next a) (next' (f a))) :
    Alongside T g (w >>= next) (w' >>= next') := by
  intro s s' out s₁ ht h
  rw [Walk.outcome_bind] at h
  cases ho : w.outcome s with
  | mk told s₂ =>
      obtain ⟨s₂', ho', ht₂⟩ := hw s s' told s₂ ht ho
      rw [ho] at h
      cases told with
      | error e =>
          cases h
          exact ⟨s₂', Walk.outcome_bind_error ho' next', ht₂⟩
      | ok a =>
          obtain ⟨s₁', hnext', ht₁⟩ := hnext a s₂ s₂' out s₁ ht₂ h
          refine ⟨s₁', ?_, ht₁⟩
          rw [Walk.outcome_bind_ok ho']
          exact hnext'

end Alongside

namespace Resolver

section Operations

variable {r r' : Resolver} {T : WalkState → WalkState → Prop} {σ : Nat → Nat}
  (huse : ∀ path use node name, Alongside T (Resolved.renamed σ)
    (r.resolveUse path use node name) (r'.resolveUse path use node name))

include huse in
theorem alongside_resolveParameters (path operation : String) (ps : List Parameter) :
    Alongside T (List.map (ResolvedParameter.renamed σ)) (r.resolveParameters path operation ps)
      (r'.resolveParameters path operation ps) := by
  induction ps with
  | nil => exact .pure _ []
  | cons p rest ih =>
      rw [resolveParameters, resolveParameters]
      refine (huse _ _ _ _).bind fun found => ?_
      refine ih.bind fun others => ?_
      exact .pure (List.map (ResolvedParameter.renamed σ))
        (⟨p.name, p.location, p.required, found.type, found.annotations⟩ :: others)

include huse in
theorem alongside_resolveContents (path name : String) (use : String → Use)
    (contents : List Content) :
    Alongside T (List.map (ResolvedContent.renamed σ))
      (r.resolveContents path name use contents) (r'.resolveContents path name use contents) := by
  induction contents with
  | nil => exact .pure _ []
  | cons content rest ih =>
      rw [resolveContents, resolveContents]
      have hrest : ∀ found : ResolvedContent,
          Alongside T (List.map (ResolvedContent.renamed σ))
            (do let others ← r.resolveContents path name use rest; pure (found :: others))
            (do let others ← r'.resolveContents path name use rest
                pure (found.renamed σ :: others)) := by
        intro found
        refine ih.bind fun others => ?_
        exact .pure (List.map (ResolvedContent.renamed σ)) (found :: others)
      cases content.schema with
      | none => exact hrest ⟨content.contentType, none, []⟩
      | some schema =>
          refine (huse _ _ _ _).bind fun found => ?_
          exact hrest ⟨content.contentType, some found.type, found.annotations⟩

include huse in
theorem alongside_resolveResponses (path operation : String)
    (responses : List (String × List Content)) :
    Alongside T (List.map (ResolvedResponse.renamed σ))
      (r.resolveResponses path operation responses)
      (r'.resolveResponses path operation responses) := by
  induction responses with
  | nil => exact .pure _ []
  | cons entry rest ih =>
      obtain ⟨status, contents⟩ := entry
      rw [resolveResponses, resolveResponses]
      refine (alongside_resolveContents huse _ _ _ _).bind fun found => ?_
      refine ih.bind fun others => ?_
      exact .pure (List.map (ResolvedResponse.renamed σ)) (⟨status, found⟩ :: others)

include huse in
theorem alongside_resolveEndpoint (e : Endpoint) :
    Alongside T (ResolvedEndpoint.renamed σ) (r.resolveEndpoint e) (r'.resolveEndpoint e) := by
  rw [resolveEndpoint, resolveEndpoint]
  refine (alongside_resolveParameters huse _ _ _).bind fun parameters => ?_
  refine (alongside_resolveContents huse _ _ _ _).bind fun requestBody => ?_
  refine (alongside_resolveResponses huse _ _ _).bind fun responses => ?_
  exact .pure (ResolvedEndpoint.renamed σ) ⟨e.path, e.method, e.operationName, e.deprecated,
    parameters, requestBody, responses⟩

include huse in
/-- **Walks over operations go alongside if their requests do**, unless the mapping documents leave
out other paths. -/
theorem alongside_resolveEndpoints (hmappings : r'.mappings = r.mappings) (es : List Endpoint) :
    Alongside T (List.map (ResolvedEndpoint.renamed σ)) (r.resolveEndpoints es)
      (r'.resolveEndpoints es) := by
  induction es with
  | nil => exact .pure _ []
  | cons e rest ih =>
      rw [resolveEndpoints, resolveEndpoints, hmappings]
      split
      · exact ih
      · refine (alongside_resolveEndpoint huse e).bind fun found => ?_
        refine ih.bind fun others => ?_
        exact .pure (List.map (ResolvedEndpoint.renamed σ)) (found :: others)

end Operations

end Resolver

/-! ## Walks in lockstep -/

/-- Walks that in twins go the same way and tell the same but for slots. -/
def Lockstep {α β : Type} (σ : Nat → Nat) (n n' : Nat) (f : α → β) (w : Walk α) (w' : Walk β) :
    Prop :=
  ∀ (s s' : WalkState) (out : Except Error α) (s₁ : WalkState), TwinStates σ n n' s s' →
    w.outcome s = (out, s₁) →
    ∃ s₁', w'.outcome s' = (out.map f, s₁') ∧ TwinStates σ n n' s₁ s₁'

namespace Resolver

variable {r : Resolver} {σ : Nat → Nat} {n n' : Nat} (hσ : Renames σ n n')

include hσ in
theorem lockstep_ask (q : Request) :
    Lockstep σ n n' (Resolved.renamed σ) (r.ask q) (r.ask q) := by
  intro s s' out s₁ ht h
  have hans := answered_ask (r := r) q s
  rw [h] at hans
  obtain ⟨s₁', hans', ht₁⟩ := hans.twin hσ ht
  exact ⟨s₁', hans'.outcome_eq, ht₁⟩

include hσ in
/-- **Operations are resolved in the same way in twins.** -/
theorem lockstep_resolveEndpoints (es : List Endpoint) :
    Lockstep σ n n' (List.map (ResolvedEndpoint.renamed σ)) (r.resolveEndpoints es)
      (r.resolveEndpoints es) :=
  alongside_resolveEndpoints
    (fun path use node name => lockstep_ask hσ (.use path use node name)) rfl es

end Resolver

end ApiTypes
