import ApiTypes.Proofs.Walk.Orders
import ApiTypes.Proofs.Walk.Results

/-!
# What the types of components depend on

Components are resolved before all operations and without a path, so of the rules only those for
schemas of the whole API matter to them. Runs whose options agree on these and on the rest
(`Options.AgreeGlobally`) resolve the components in the same walk (`resolveComponents_eq`).
Operations, which may depend on other rules, only add slots. **So a component has the same type and
the same annotations in both results** (`Options.AgreeGlobally.components_agree`).
-/

set_option autoImplicit false

namespace ApiTypes

/-- Options that differ in the rules for parameters, responses and paths at most. -/
structure Options.AgreeGlobally (o o' : Options) : Prop where
  /-- They have the same root package. -/
  packageName_eq : o'.packageName = o.packageName
  /-- They have the same annotations for constraints. -/
  validation_eq : o'.validation = o.validation
  /-- They have the same suffix. -/
  modelNameSuffix_eq : o'.modelNameSuffix = o.modelNameSuffix
  /-- They agree on whether alternatives become an interface. -/
  oneOfInterface_eq : o'.oneOfInterface = o.oneOfInterface
  /-- They have as many mapping documents, and at each position the same rules for schemas. -/
  types_eq : (o'.mappings.map fun m => m.global.types) = o.mappings.map fun m => m.global.types

namespace Options.AgreeGlobally

variable {o o' : Options} {d : Description}

/-- Options that agree differ in their mapping documents alone. -/
theorem eq_with (h : o.AgreeGlobally o') : o' = { o with mappings := o'.mappings } := by
  obtain ⟨hpackage, hvalidation, hsuffix, hinterface, _⟩ := h
  cases o'
  cases hpackage
  cases hvalidation
  cases hsuffix
  cases hinterface
  rfl

/-! ## The same walk -/

section Walks

variable {recur : SchemaNode → String → Walk TypeId}

theorem buildFromRule_eq (h : o.AgreeGlobally o') (n : SchemaNode) (name : String) (rule : Rule) :
    (Resolver.mk d o').buildFromRule recur n name rule
      = (Resolver.mk d o).buildFromRule recur n name rule := by
  rw [h.eq_with]
  rfl

theorem buildByShape_eq (h : o.AgreeGlobally o') (n : SchemaNode) (name : String) (key : MemoKey) :
    (Resolver.mk d o').buildByShape recur n name key
      = (Resolver.mk d o).buildByShape recur n name key := by
  rw [h.eq_with]
  rfl

/-- The type of a node is made in the same way: the same rule wins for it. -/
theorem build_eq (h : o.AgreeGlobally o') (n : SchemaNode) (name : String)
    (features : SchemaFeatures) (key : MemoKey) :
    (Resolver.mk d o').build none recur n name features key
      = (Resolver.mk d o).build none recur n name features key := by
  -- Of the mappings nothing is read here but what wins without a path.
  have hrule : Lookup.typeRule? o'.mappings none .schema features
      = Lookup.typeRule? o.mappings none .schema features :=
    congrArg (Option.map Prod.snd) (Lookup.placedTypeRule?_none_congr h.types_eq features)
  unfold Resolver.build Resolver.mappings
  simp only [hrule, h.buildFromRule_eq, h.buildByShape_eq]

/-- The type of a node gets the same annotations. -/
theorem annotate_eq (h : o.AgreeGlobally o') (n : SchemaNode) (features : SchemaFeatures)
    (id : TypeId) :
    (Resolver.mk d o').annotate none n features id
      = (Resolver.mk d o).annotate none n features id := by
  have hrules := Lookup.annotateRules_none_congr h.types_eq features
  unfold Resolver.annotate Resolver.nodeAnnotations Resolver.mappings
  simp only [hrules, h.validation_eq]

theorem resolveStep_eq (h : o.AgreeGlobally o') (n : SchemaNode) (name : String)
    (isNamed : Bool) :
    (Resolver.mk d o').resolveStep none recur n name isNamed
      = (Resolver.mk d o).resolveStep none recur n name isNamed := by
  have hnew : ∀ n name isNamed key, (Resolver.mk d o').resolveNew none recur n name isNamed key
      = (Resolver.mk d o).resolveNew none recur n name isNamed key := by
    intro n name isNamed key
    unfold Resolver.resolveNew
    simp only [h.build_eq, h.annotate_eq]
  unfold Resolver.resolveStep
  simp only [hnew]
  rfl

end Walks

/-- A schema is resolved without a path in the same way. -/
theorem resolveWithin_eq (h : o.AgreeGlobally o') (depth : Nat) (n : SchemaNode) (name : String)
    (isNamed : Bool) :
    (Resolver.mk d o').resolveWithin none depth n name isNamed
      = (Resolver.mk d o).resolveWithin none depth n name isNamed := by
  induction depth generalizing n name isNamed with
  | zero => rfl
  | succ depth ih =>
      rw [Resolver.resolveWithin, Resolver.resolveWithin, h.resolveStep_eq]
      simp only [ih]

/-- **Components are resolved in the same walk.** -/
theorem resolveComponents_eq (h : o.AgreeGlobally o') (components : List (String × SchemaNode)) :
    (Resolver.mk d o').resolveComponents components
      = (Resolver.mk d o).resolveComponents components := by
  induction components with
  | nil => rfl
  | cons entry rest ih =>
      obtain ⟨name, n⟩ := entry
      have hcomponent : (Resolver.mk d o').resolveComponent n name
          = (Resolver.mk d o).resolveComponent n name := h.resolveWithin_eq _ n name true
      rw [Resolver.resolveComponents, Resolver.resolveComponents, hcomponent, ih]

/-! ## The same types -/

/-- **Components depend on the rules for schemas of the whole API alone.** Options that differ in
other rules resolve the components alike: with the same types, or with the same error, which both
runs fail with. If both runs succeed, the components have the same slots in both results, and each
slot that was taken for the components has the same type and the same annotations. -/
theorem components_agree (h : o.AgreeGlobally o') (d : Description) :
    ((Resolver.mk d o').resolveComponents d.components).outcome {}
      = ((Resolver.mk d o).resolveComponents d.components).outcome {} ∧
    (∀ e s, ((Resolver.mk d o).resolveComponents d.components).outcome {} = (.error e, s) →
      (Resolver.mk d o).run = .error e ∧ (Resolver.mk d o').run = .error e) ∧
    ∀ api api', (Resolver.mk d o).run = .ok api → (Resolver.mk d o').run = .ok api' →
      api'.models = api.models ∧
      ∃ s, ((Resolver.mk d o).resolveComponents d.components).outcome {} = (.ok api.models, s) ∧
        s.types.size ≤ api.types.size ∧ s.types.size ≤ api'.types.size ∧
        ∀ i : Nat, i < s.types.size →
          api'.types.get? i = api.types.get? i ∧
          api'.types.annotations i = api.types.annotations i := by
  have hsame : ((Resolver.mk d o').resolveComponents d.components).outcome {}
      = ((Resolver.mk d o).resolveComponents d.components).outcome {} := by
    rw [h.resolveComponents_eq]
  refine ⟨hsame, fun e s hfails => ?_, fun api api' hrun hrun' => ?_⟩
  · exact ⟨Resolver.run_of_resolveComponents_error hfails,
      Resolver.run_of_resolveComponents_error (hsame.trans hfails)⟩
  · obtain ⟨_, s, last, hmodels, _, hoperations, htypes⟩ := Resolver.parts_of_run hrun
    obtain ⟨_, s', last', hmodels', _, hoperations', htypes'⟩ := Resolver.parts_of_run hrun'
    -- The operations of either run start from the state that the components leave.
    have hstates := hmodels'.symm.trans (hsame.trans hmodels)
    obtain ⟨hout, rfl⟩ := Prod.mk.inj hstates
    have hgrows := Resolver.grows_of_resolveEndpoints hoperations
    have hgrows' := Resolver.grows_of_resolveEndpoints hoperations'
    rw [← htypes] at hgrows
    rw [← htypes'] at hgrows'
    refine ⟨Except.ok.inj hout, s', hmodels, hgrows.size_le, hgrows'.size_le, fun i hi => ⟨?_, ?_⟩⟩
    · rw [hgrows'.get?_eq i hi, hgrows.get?_eq i hi]
    · rw [hgrows'.annotations_eq i hi, hgrows.annotations_eq i hi]

end Options.AgreeGlobally

/-- A rule that marks objects. -/
def markRule : Rule where
  kind := .annotate
  source := ⟨"object", none⟩
  annotation := some { typeName := "io.Marked" }

/-- A rule that gives pets a type. -/
def petRule : Rule where
  kind := .type
  source := ⟨"Pet", none⟩
  target := some "io.Pet"

/-- Options with a rule for schemas of the whole API. -/
def markOptions : Options where
  mappings := [⟨"v2", false, {}, { types := [markRule] }, .empty⟩]

/-- The same options with another rule for schemas on a path. -/
def petOptions : Options where
  mappings := [⟨"v2", false, {}, { types := [markRule] },
    .ofList [("/pets", { rules := { types := [petRule] } })]⟩]

/-- On the path a pet has a type of its own, but the component is the same. -/
theorem components_agree_of_petOptions :
    ∃ api api', (Resolver.mk petDescription markOptions).run = .ok api ∧
      (Resolver.mk petDescription petOptions).run = .ok api' ∧
      api.endpoints.flatMap ResolvedEndpoint.types = [0, 2] ∧
      api'.endpoints.flatMap ResolvedEndpoint.types = [2, 3] ∧
      api'.models = api.models ∧
      api'.types.get? (0 : Nat) = api.types.get? (0 : Nat) ∧
      api'.types.annotations (0 : Nat) = api.types.annotations (0 : Nat) := by
  have hagree : markOptions.AgreeGlobally petOptions := ⟨rfl, rfl, rfl, rfl, rfl⟩
  obtain ⟨api, hrun, hends⟩ := exists_of_map_toOption (show (Resolver.mk petDescription
    markOptions).run.toOption.map (fun api => api.endpoints.flatMap ResolvedEndpoint.types)
      = some [0, 2] by decide +kernel)
  obtain ⟨api', hrun', hends'⟩ := exists_of_map_toOption (show (Resolver.mk petDescription
    petOptions).run.toOption.map (fun api => api.endpoints.flatMap ResolvedEndpoint.types)
      = some [2, 3] by decide +kernel)
  have hsize : (((Resolver.mk petDescription markOptions).resolveComponents
      petDescription.components).outcome {}).2.types.size = 2 := by
    decide +kernel
  obtain ⟨hsame, s, hcomponents, _, _, hslots⟩ :=
    (hagree.components_agree petDescription).2.2 api api' hrun hrun'
  rw [hcomponents] at hsize
  refine ⟨api, api', hrun, hrun', hends, hends', hsame, ?_⟩
  exact hslots 0 (Nat.lt_of_lt_of_eq Nat.zero_lt_two hsize.symm)

end ApiTypes
