import ApiTypes.Mapping.Lookup

/-!
# What lookups read

A lookup for schemas reads the lists of rules for schemas and nothing else: those of the whole API
(`Lookup.placedTypeRule?_none_congr`), and those that documents have for the path, if there are any
(`Lookup.placedTypeRule?_scope`). Where no document has rules for schemas on a path, schemas become
there what they become elsewhere. A lookup finds no rule for a schema exactly if no rule of these
lists matches it (`Lookup.typeRule?_eq_none_iff`).
-/

set_option autoImplicit false

namespace ApiTypes

namespace Lookup

variable {mappings : List Mapping}

/-- Rules for schemas on a path are those of its scope. -/
theorem flatMap_pathScopes (path : Option String) :
    (pathScopes mappings path).flatMap (candidates true .schema)
      = (pathScopes mappings (path.filter (hasPathTypes mappings))).flatMap
          (candidates true .schema) := by
  cases path with
  | none => rfl
  | some p =>
      cases hp : hasPathTypes mappings p with
      | true => rw [Option.filter_some, hp, if_pos rfl]
      | false =>
          -- The scopes are there, but their lists for schemas are empty.
          have hnone : (some p).filter (hasPathTypes mappings) = none := by
            rw [Option.filter_some, hp]
            rfl
          have hempty : ∀ scope ∈ pathScopes mappings (some p),
              candidates true .schema scope = [] := by
            intro scope hscope
            have hall : ¬ (pathScopes mappings (some p)).any (fun scope =>
                !scope.2.types.isEmpty) = true := by
              intro h
              rw [hasPathTypes, h] at hp
              cases hp
            have htypes : scope.2.types = [] := by
              cases ht : scope.2.types with
              | nil => rfl
              | cons rule rest =>
                  refine absurd (List.any_eq_true.mpr ⟨scope, hscope, ?_⟩) hall
                  rw [ht]
                  rfl
            rw [candidates, htypes]
            rfl
          rw [hnone]
          exact List.flatMap_eq_nil_iff.mpr hempty

theorem placedTypeRule?_scope (path : Option String) (features : SchemaFeatures) :
    placedTypeRule? mappings path .schema features
      = placedTypeRule? mappings (path.filter (hasPathTypes mappings)) .schema features := by
  simp only [placedTypeRule?, winner?, flatMap_pathScopes path]

theorem typeRule?_scope (path : Option String) (features : SchemaFeatures) :
    typeRule? mappings path .schema features
      = typeRule? mappings (path.filter (hasPathTypes mappings)) .schema features := by
  simp only [typeRule?, placedTypeRule?_scope path]

theorem annotateRules_scope (path : Option String) (features : SchemaFeatures) :
    annotateRules mappings path .schema features
      = annotateRules mappings (path.filter (hasPathTypes mappings)) .schema features := by
  simp only [annotateRules, collectAnnotateRules, flatMap_pathScopes path]

/-- A document has rules for schemas on a path. -/
def RulesForSchemas (mappings : List Mapping) (path : String) : Prop :=
  ∃ m ∈ mappings, ∃ found, m.paths.get? path = some found ∧ ¬ found.rules.types = []

/-- Schemas may become something else on a path if a document has rules for schemas there. -/
theorem hasPathTypes_iff (path : String) :
    hasPathTypes mappings path = true ↔ RulesForSchemas mappings path := by
  constructor
  · intro h
    obtain ⟨scope, hscope, htypes⟩ := List.any_eq_true.mp h
    obtain ⟨⟨m, document⟩, hm, hscope⟩ := List.mem_filterMap.mp hscope
    obtain ⟨found, hfound, rfl⟩ := Option.map_eq_some_iff.mp hscope
    refine ⟨m, List.mem_of_getElem? (List.mem_zipIdx_iff_getElem?.mp hm), found, hfound, ?_⟩
    rw [Bool.not_eq_true', List.isEmpty_eq_false_iff] at htypes
    exact htypes
  · rintro ⟨m, hm, found, hfound, htypes⟩
    -- A scope carries the position of its document.
    obtain ⟨document, hdocument⟩ := List.getElem?_of_mem hm
    refine List.any_eq_true.mpr ⟨(document, found.rules), ?_, ?_⟩
    · refine List.mem_filterMap.mpr
        ⟨(m, document), List.mem_zipIdx_iff_getElem?.mpr hdocument, ?_⟩
      simp only [hfound, Option.map_some]
    · rw [Bool.not_eq_true', List.isEmpty_eq_false_iff]
      exact htypes

/-- **Where no document has rules for schemas on a path, lookups for schemas give what they give
without a path.** -/
theorem lookups_of_not_rulesForSchemas {path : String} (h : ¬ RulesForSchemas mappings path)
    (features : SchemaFeatures) :
    placedTypeRule? mappings (some path) .schema features
      = placedTypeRule? mappings none .schema features ∧
    typeRule? mappings (some path) .schema features = typeRule? mappings none .schema features ∧
    annotateRules mappings (some path) .schema features
      = annotateRules mappings none .schema features := by
  have hscope : (some path).filter (hasPathTypes mappings) = none := by
    rw [Option.filter_some, if_neg]
    exact fun hp => h ((hasPathTypes_iff path).mp hp)
  rw [placedTypeRule?_scope (some path), typeRule?_scope (some path),
    annotateRules_scope (some path), hscope]
  exact ⟨rfl, rfl, rfl⟩

/-- A use as a schema has no rule of its own. -/
theorem usageTypeRule?_schema (path : Option String) (features : SchemaFeatures) :
    usageTypeRule? mappings path .schema features = none := by
  rw [usageTypeRule?]
  cases placedTypeRule? mappings path .schema features with
  | none => rfl
  | some found => exact if_pos rfl

/-! ## Schemas that no rule matches -/

/-- A document has a rule, for the path or for the whole API, that gives schemas of some features
their type. -/
def HasTypeRule (mappings : List Mapping) (path : Option String) (features : SchemaFeatures) :
    Prop :=
  ∃ scope ∈ pathScopes mappings path ++ globalScopes mappings, ∃ rule ∈ scope.2.types,
    rule.kind = .type ∧ features.matches rule.source = true

/-- The rules of a scope for schemas, whatever their places are. -/
theorem map_snd_candidates (ofPath : Bool) (scope : Nat × RuleSet) :
    (candidates ofPath .schema scope).map Prod.snd = scope.2.types := by
  rw [candidates, useRules, Use.section?, List.append_nil, placed, List.map_map]
  exact List.zipIdx_map_fst 0 scope.2.types

/-- Nothing wins where no rule is wanted. -/
theorem winner?_eq_none_iff {path : Option String}
    {rules : Bool → Nat × RuleSet → List PlacedRule} {wanted : Rule → Bool} :
    winner? mappings path rules wanted = none ↔
      (∀ scope ∈ pathScopes mappings path, ∀ rule ∈ (rules true scope).map Prod.snd,
        ¬ wanted rule = true) ∧
      ∀ scope ∈ globalScopes mappings, ∀ rule ∈ (rules false scope).map Prod.snd,
        ¬ wanted rule = true := by
  have hlast : ∀ (ofPath : Bool) (scopes : Scopes),
      ((scopes.flatMap (rules ofPath)).filter fun r => wanted r.2).getLast? = none ↔
        ∀ scope ∈ scopes, ∀ rule ∈ (rules ofPath scope).map Prod.snd, ¬ wanted rule = true := by
    intro ofPath scopes
    rw [List.getLast?_eq_none_iff, List.filter_eq_nil_iff]
    constructor
    · intro h scope hscope rule hrule
      obtain ⟨found, hfound, rfl⟩ := List.mem_map.mp hrule
      exact h found (List.mem_flatMap.mpr ⟨scope, hscope, hfound⟩)
    · intro h found hfound
      obtain ⟨scope, hscope, hmem⟩ := List.mem_flatMap.mp hfound
      exact h scope hscope found.2 (List.mem_map_of_mem hmem)
  rw [winner?, Option.or_eq_none_iff]
  exact and_congr (hlast true _) (hlast false _)

/-- **No rule is found for a schema exactly if none matches it.** -/
theorem typeRule?_eq_none_iff {path : Option String} {features : SchemaFeatures} :
    typeRule? mappings path .schema features = none ↔ ¬ HasTypeRule mappings path features := by
  rw [typeRule?, Option.map_eq_none_iff, placedTypeRule?, winner?_eq_none_iff, HasTypeRule]
  simp only [map_snd_candidates, Bool.and_eq_true, beq_iff_eq, not_exists, not_and,
    List.mem_append, or_imp, forall_and]

/-! ## Rules of the whole API -/

/-- The rules for schemas of the whole API are those of the lists for schemas. -/
theorem flatMap_globalScopes (mappings : List Mapping) :
    (globalScopes mappings).flatMap (candidates false .schema)
      = (mappings.map fun m => m.global.types).zipIdx.flatMap fun (types, document) =>
          placed false document .types types := by
  rw [globalScopes, List.flatMap_map, List.zipIdx_map, List.flatMap_map]
  refine congrArg (fun rules => List.flatMap rules mappings.zipIdx) (funext fun entry => ?_)
  rw [candidates, useRules, Use.section?]
  exact List.append_nil _

variable {mappings' : List Mapping}

/-- Without a path, a lookup for schemas reads nothing but the lists for schemas. -/
theorem placedTypeRule?_none_congr
    (h : (mappings.map fun m => m.global.types) = mappings'.map fun m => m.global.types)
    (features : SchemaFeatures) :
    placedTypeRule? mappings none .schema features
      = placedTypeRule? mappings' none .schema features := by
  simp only [placedTypeRule?, winner?, flatMap_globalScopes, h]
  rfl

theorem annotateRules_none_congr
    (h : (mappings.map fun m => m.global.types) = mappings'.map fun m => m.global.types)
    (features : SchemaFeatures) :
    annotateRules mappings none .schema features
      = annotateRules mappings' none .schema features := by
  simp only [annotateRules, collectAnnotateRules, flatMap_globalScopes, h]
  rfl

end Lookup

end ApiTypes
