import ApiTypes.Model.Naming
import ApiTypes.Proofs.Document.Loops
import ApiTypes.Proofs.Walk.Likeness
import ApiTypes.Proofs.Walk.Results

/-!
# Options that change only what they name

Three options are about how types are written: the suffix of their names, whether alternatives
become an interface, and the annotations for constraints. Nothing that is written is read again by
the walk. **So runs whose options differ in these alone are the same run but for what the options
name** (`Options.SameRules.run_alike`): with the same error, or with the same models, the same
operations and the same slots, which differ in the suffixes, in the marks, and in what follows the
annotations of rules.
-/

set_option autoImplicit false

namespace ApiTypes

/-- Options with the same rules and the same root package. -/
structure Options.SameRules (o o' : Options) : Prop where
  /-- They have the same root package. -/
  packageName_eq : o'.packageName = o.packageName
  /-- They have the same mapping documents. -/
  mappings_eq : o'.mappings = o.mappings

/-- Names for the same schema that go on from the same stem with a suffix each. -/
def TypeName.SameStem (suffix suffix' : String) (name name' : TypeName) : Prop :=
  ∃ schema stem, name = ⟨schema, stem ++ suffix⟩ ∧ name' = ⟨schema, stem ++ suffix'⟩

/-- Lists of annotations that begin with the same ones, and have no others where there are none for
constraints. -/
structure SameStart (validation validation' : Validation) (found found' : List Annotation) :
    Prop where
  /-- Both begin with the same annotations. -/
  start : ∃ common, common <+: found ∧ common <+: found' ∧
    (validation = .disabled → found = common) ∧ (validation' = .disabled → found' = common)
  /-- The same option gives the same annotations. -/
  same : validation' = validation → found' = found

namespace SameStart

variable {validation validation' : Validation} {found found' : List Annotation}

/-- Without annotations for constraints a list is the beginning of the other one. -/
theorem prefix_of_disabled (h : SameStart validation validation' found found')
    (hdisabled : validation = .disabled) : found <+: found' := by
  obtain ⟨common, _, hprefix', hfound, _⟩ := h.start
  rw [hfound hdisabled]
  exact hprefix'

end SameStart

/-- Adding annotations keeps those that are there in front. -/
theorem TypeStore.prefix_foldl_addAnnotation (found more : List Annotation) :
    found <+: more.foldl addAnnotation found := by
  induction more generalizing found with
  | nil => exact List.prefix_rfl
  | cons a more ih =>
      refine List.IsPrefix.trans ?_ (ih _)
      unfold addAnnotation
      split
      · exact List.prefix_rfl
      · exact List.prefix_append found [a]

namespace Options.SameRules

variable {o o' : Options}

/-- What stores of runs with two options may differ in. -/
def likeness (o o' : Options) : Likeness where
  names := TypeName.SameStem o.modelNameSuffix o'.modelNameSuffix
  marks mark mark' := mark = o.oneOfInterface ∧ mark' = o'.oneOfInterface
  annotations := SameStart o.validation o'.validation
  annotations_nil :=
    { start := ⟨[], List.prefix_rfl, List.prefix_rfl, fun _ => rfl, fun _ => rfl⟩
      same := fun _ => rfl }

/-- What rules annotate comes first, and what follows for the constraints depends on the option. -/
theorem sameStart_foldl (validation validation' : Validation) (given : List Annotation)
    (c : Constraints) :
    SameStart validation validation'
      ((given ++ c.annotations validation).foldl TypeStore.addAnnotation [])
      ((given ++ c.annotations validation').foldl TypeStore.addAnnotation []) where
  start := by
    rw [List.foldl_append, List.foldl_append]
    refine ⟨given.foldl TypeStore.addAnnotation [], TypeStore.prefix_foldl_addAnnotation _ _,
      TypeStore.prefix_foldl_addAnnotation _ _, ?_, ?_⟩
    · rintro rfl
      rfl
    · rintro rfl
      rfl
  same := by
    rintro rfl
    rfl

/-- Resolvers with the same rules write alike. -/
theorem writes (h : o.SameRules o') (d : Description) :
    (Resolver.mk d o).Writes (likeness o o') True (Resolver.mk d o') where
  description_eq := rfl
  mappings_eq := h.mappings_eq
  packageName_eq := h.packageName_eq
  typeName name name' hname := ⟨name, Text.upperCamel name, rfl, by rw [hname trivial]; rfl⟩
  mark := ⟨rfl, rfl⟩
  annotations := sameStart_foldl o.validation o'.validation

/-- **The suffix, the mark of alternatives and the annotations for constraints change only what they
name.** Runs whose options differ in these alone fail with the same error, or both succeed. Then
they tell the same models and the same operations, they have as many slots and remember the same,
and each slot has types in both that differ in the suffix of the name, which follows either option,
and in the mark of alternatives, which does so too. The annotations of a slot begin alike: with all
of them, where the option leaves out those for constraints. -/
theorem run_alike (h : o.SameRules o') (d : Description) :
    (∃ e, (Resolver.mk d o).run = .error e ∧ (Resolver.mk d o').run = .error e) ∨
    ∃ api api', (Resolver.mk d o).run = .ok api ∧ (Resolver.mk d o').run = .ok api' ∧
      api'.models = api.models ∧ api'.endpoints = api.endpoints ∧
      api'.types.size = api.types.size ∧
      (∀ key, api'.types.lookup key = api.types.lookup key) ∧
      ∀ i : Nat,
        Option.Rel
          (ModelType.Like (TypeName.SameStem o.modelNameSuffix o'.modelNameSuffix)
            fun mark mark' => mark = o.oneOfInterface ∧ mark' = o'.oneOfInterface)
          (api.types.get? i) (api'.types.get? i) ∧
        SameStart o.validation o'.validation (api.types.annotations i)
          (api'.types.annotations i) := by
  rw [Resolver.run_eq, Resolver.run_eq]
  cases ho : (Resolver.mk d o).resolveAll.outcome {} with
  | mk told s =>
      obtain ⟨s', ho', hlike⟩ := (h.writes d).alongside_resolveAll {} {} told s
        ⟨TypeStore.Like.empty, rfl⟩ ho
      rw [ho', Except.map_id]
      cases told with
      | error e => exact Or.inl ⟨e, rfl, rfl⟩
      | ok found =>
          exact Or.inr ⟨_, _, rfl, rfl, rfl, rfl, hlike.types.size_eq, hlike.types.lookup_eq,
            fun i => ⟨hlike.types.get?_rel i, hlike.types.annotations_rel i⟩⟩

end Options.SameRules

/-- The keywords of a size, which is one of two texts and has a least length. -/
def sizeKeywords : Keywords where
  type := some "string"
  enum := [.str "S", .str "XL"]
  constraints := { minLength := some 1 }

/-- A description of sizes. -/
def sizeDescription : Description where
  dialect := .early
  version := "3.0.0"
  schemas := [("Size", .inline sizeKeywords [] [] [] [] none .none)]

/-- Options that write everything that may be left out. -/
def fullOptions : Options where
  modelNameSuffix := "Dto"
  oneOfInterface := true
  validation := .jakarta

/-- With all of these options the enumeration has a suffix and an annotation. -/
theorem run_alike_sizeDescription :
    ∃ api api', (Resolver.mk sizeDescription {}).run = .ok api ∧
      (Resolver.mk sizeDescription fullOptions).run = .ok api' ∧
      api'.models = api.models ∧
      api.types.typeName (0 : Nat) = "Size" ∧ api'.types.typeName (0 : Nat) = "SizeDto" ∧
      api.types.annotations (0 : Nat) <+: api'.types.annotations (0 : Nat) ∧
      (api'.types.annotations (0 : Nat)).map (·.typeName)
        = ["jakarta.validation.constraints.Size"] := by
  have hsame : Options.SameRules {} fullOptions := ⟨rfl, rfl⟩
  obtain ⟨api, hrun, hname⟩ := exists_of_map_toOption (show (Resolver.mk sizeDescription
    {}).run.toOption.map (fun api => api.types.typeName (0 : Nat)) = some "Size" by decide +kernel)
  obtain ⟨api', hrun', hname'⟩ := exists_of_map_toOption (show (Resolver.mk sizeDescription
    fullOptions).run.toOption.map (fun api => (api.types.typeName (0 : Nat),
      (api.types.annotations (0 : Nat)).map (·.typeName)))
      = some ("SizeDto", ["jakarta.validation.constraints.Size"]) by decide +kernel)
  rcases hsame.run_alike sizeDescription with
    ⟨e, hfails, _⟩ | ⟨_, _, hok, hok', hmodels, _, _, _, hslots⟩
  · rw [hrun] at hfails
    cases hfails
  · obtain rfl := Except.ok.inj (hrun.symm.trans hok)
    obtain rfl := Except.ok.inj (hrun'.symm.trans hok')
    exact ⟨_, _, hrun, hrun', hmodels, hname, congrArg Prod.fst hname',
      (hslots 0).2.prefix_of_disabled rfl, congrArg Prod.snd hname'⟩

end ApiTypes
