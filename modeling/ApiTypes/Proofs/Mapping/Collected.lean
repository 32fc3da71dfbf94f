import ApiTypes.Proofs.Mapping.Scopes
import ApiTypes.Proofs.Store.Sameness
import Mathlib.Data.List.Pairwise

/-!
# Rules for annotations

All rules for annotations that match a schema apply to it, in the order in which they are declared
(`Lookup.annotating`). A lookup gives them without repetitions, that is, without those that have the
source and the annotation of an earlier one (`Lookup.annotateRules_eq`,
`Lookup.usageAnnotateRules_eq`). Rules with different sources may have the same annotation; so the
annotations of the rules that are left are without repetitions exactly if no two rules that match do
(`Lookup.pairwise_annotations_iff`).
-/

set_option autoImplicit false

namespace ApiTypes

namespace Lookup

variable {mappings : List Mapping} {path : Option String} {place : Section}
  {features : SchemaFeatures} {a b : Rule}

/-! ## Rules in the order of their declaration -/

/-- The rules of one list that apply on a path in the order in which they are declared: those that
documents have for the path, and then those that documents have for the whole API. -/
def declared (mappings : List Mapping) (path : Option String) (place : Section) : List Rule :=
  (path.toList.flatMap fun p => mappings.flatMap fun m =>
      (m.paths.get? p).toList.flatMap fun found => found.rules.rulesOf place)
    ++ mappings.flatMap fun m => m.global.rulesOf place

/-- The rules of one list that add annotations to a schema, in the order in which they are
declared. -/
def annotating (mappings : List Mapping) (path : Option String) (place : Section)
    (features : SchemaFeatures) : List Rule :=
  (declared mappings path place).filter fun rule =>
    rule.kind == .annotate && features.matches rule.source

theorem map_snd_placed {ofPath : Bool} {document : Nat} {rules : List Rule} :
    (placed ofPath document place rules).map Prod.snd = rules := by
  rw [placed, List.map_map]
  exact List.zipIdx_map_fst 0 rules

theorem flatMap_zipIdx {α β : Type} (f : α → List β) (l : List α) :
    (l.zipIdx.flatMap fun entry => f entry.1) = l.flatMap f := by
  rw [← List.flatMap_map, List.zipIdx_map_fst]

theorem flatMap_rulesOf_pathScopes :
    ((pathScopes mappings path).flatMap fun scope => scope.2.rulesOf place)
      = path.toList.flatMap fun p => mappings.flatMap fun m =>
          (m.paths.get? p).toList.flatMap fun found => found.rules.rulesOf place := by
  cases path with
  | none => rfl
  | some p =>
      have hscope : ∀ entry : Mapping × Nat,
          ((entry.1.paths.get? p).map fun found => (entry.2, found.rules)).toList.flatMap
              (fun scope : Nat × RuleSet => scope.2.rulesOf place)
            = (entry.1.paths.get? p).toList.flatMap fun found => found.rules.rulesOf place := by
        intro entry
        cases entry.1.paths.get? p with
        | none => rfl
        | some found => rfl
      rw [Option.toList_some, List.flatMap_singleton]
      refine Eq.trans ?_ (flatMap_zipIdx _ mappings)
      rw [pathScopes, List.filterMap_eq_flatMap_toList, List.flatMap_assoc]
      exact congrArg (List.flatMap · mappings.zipIdx) (funext hscope)

theorem flatMap_rulesOf_globalScopes :
    ((globalScopes mappings).flatMap fun scope => scope.2.rulesOf place)
      = mappings.flatMap fun m => m.global.rulesOf place := by
  rw [globalScopes, List.flatMap_map]
  exact flatMap_zipIdx (fun m => m.global.rulesOf place) mappings

/-- Rules for schemas on a path are those of its scope. -/
theorem declared_scope (path : Option String) :
    declared mappings path .types
      = declared mappings (path.filter (hasPathTypes mappings)) .types := by
  have hrules : ∀ path : Option String,
      (path.toList.flatMap fun p => mappings.flatMap fun m =>
        (m.paths.get? p).toList.flatMap fun found => found.rules.rulesOf .types)
      = ((pathScopes mappings path).flatMap (candidates true .schema)).map Prod.snd := by
    intro path
    rw [← flatMap_rulesOf_pathScopes, List.map_flatMap]
    simp only [map_snd_candidates]
    rfl
  rw [declared, declared, hrules, hrules, flatMap_pathScopes path]

/-! ## Rules that are repetitions -/

theorem sameAnnotation_refl (a : Rule) : sameAnnotation a a = true := by
  unfold sameAnnotation
  rw [Bool.and_eq_true]
  refine ⟨beq_self_eq_true _, ?_⟩
  cases a.annotation with
  | none => rfl
  | some x => exact Annotation.same_equivalence.refl x

theorem sameAnnotation_comm (a b : Rule) : sameAnnotation a b = sameAnnotation b a := by
  unfold sameAnnotation
  rw [BEq.comm]
  refine congrArg _ ?_
  cases a.annotation with
  | none => cases b.annotation <;> rfl
  | some x =>
      cases b.annotation with
      | none => rfl
      | some y => exact Annotation.same_comm x y

/-- Repetitions have the same source, and the same annotation. -/
theorem annotation_of_sameAnnotation (h : sameAnnotation a b = true) :
    a.source = b.source ∧
      ∀ x, a.annotation = some x → ∃ y, b.annotation = some y ∧ x.same y = true := by
  unfold sameAnnotation at h
  rw [Bool.and_eq_true, beq_iff_eq] at h
  obtain ⟨hsource, hsame⟩ := h
  refine ⟨hsource, fun x hx => ?_⟩
  rw [hx] at hsame
  cases hb : b.annotation with
  | none =>
      rw [hb] at hsame
      cases hsame
  | some y =>
      rw [hb] at hsame
      exact ⟨y, rfl, hsame⟩

theorem sameAnnotation_of_same (hsource : a.source = b.source) {x y : Annotation}
    (hx : a.annotation = some x) (hy : b.annotation = some y) (h : x.same y = true) :
    sameAnnotation a b = true := by
  unfold sameAnnotation
  rw [hx, hy, hsource, beq_self_eq_true, Bool.true_and]
  exact h

/-! ## Lookups -/

/-- A lookup in one list gives the rules that match without repetitions. -/
theorem collectAnnotateRules_eq {rules : Bool → Nat × RuleSet → List PlacedRule}
    (hrules : ∀ ofPath scope, (rules ofPath scope).map Prod.snd = scope.2.rulesOf place) :
    collectAnnotateRules mappings path rules features
      = (annotating mappings path place features).eraseDupsBy sameAnnotation := by
  simp only [collectAnnotateRules, List.map_append, List.map_flatMap, hrules]
  rw [flatMap_rulesOf_pathScopes, flatMap_rulesOf_globalScopes]
  exact foldl_addNew_eq_eraseDupsBy (fun _ _ => rfl) sameAnnotation_comm _

theorem annotateRules_eq :
    annotateRules mappings path .schema features
      = (annotating mappings path .types features).eraseDupsBy sameAnnotation :=
  collectAnnotateRules_eq fun ofPath scope => map_snd_candidates ofPath scope

theorem usageAnnotateRules_eq {use : Use} (hsection : use.section? = some place) :
    usageAnnotateRules mappings path use features
      = (annotating mappings path place features).eraseDupsBy sameAnnotation := by
  refine collectAnnotateRules_eq fun ofPath scope => ?_
  rw [useRules, hsection]
  exact map_snd_placed

/-- No list belongs to schemas alone. -/
theorem usageAnnotateRules_schema :
    usageAnnotateRules mappings path .schema features = [] := by
  have hnone : ∀ ofPath (scopes : List (Nat × RuleSet)),
      scopes.flatMap (useRules ofPath .schema) = [] := by
    intro ofPath scopes
    rw [List.flatMap_eq_nil_iff]
    exact fun _ _ => rfl
  simp [usageAnnotateRules, collectAnnotateRules, hnone]

/-! ## Annotations of rules -/

/-- Where annotations are left without repetitions anyway, it makes no difference that repeated
rules were left out before. -/
theorem eraseDupsBy_annotations (rules : List Rule) (more : List Annotation) :
    ((rules.eraseDupsBy sameAnnotation).filterMap (fun rule => rule.annotation) ++ more).eraseDupsBy
        Annotation.same
      = (rules.filterMap (fun rule => rule.annotation) ++ more).eraseDupsBy Annotation.same := by
  have hlike : ∀ a b : Rule, sameAnnotation a b = true → ∀ x, a.annotation = some x →
      ∃ y, b.annotation = some y ∧ x.same y = true := by
    intro a b h
    obtain ⟨-, hannotation⟩ := annotation_of_sameAnnotation h
    exact hannotation
  exact eraseDupsBy_filterMap_append Annotation.same_equivalence hlike more rules

/-- Rules with the same annotation have the same source. -/
def OneSource (rules : List Rule) : Prop :=
  ∀ a ∈ rules, ∀ b ∈ rules, ∀ x y, a.annotation = some x → b.annotation = some y →
    x.same y = true → a.source = b.source

/-- **The annotations of rules without repetitions are without repetitions exactly if rules with the
same annotation have the same source.** -/
theorem pairwise_annotations_iff (rules : List Rule) :
    (((rules.eraseDupsBy sameAnnotation).filterMap (fun rule => rule.annotation)).Pairwise
        fun x y => x.same y = false) ↔ OneSource rules := by
  rw [List.pairwise_filterMap, OneSource]
  constructor
  · intro hpairwise a ha b hb x y hx hy hxy
    obtain ⟨a', ha', haa'⟩ := exists_like_mem_eraseDupsBy sameAnnotation_refl ha
    obtain ⟨b', hb', hbb'⟩ := exists_like_mem_eraseDupsBy sameAnnotation_refl hb
    obtain ⟨hsource, hannotation⟩ := annotation_of_sameAnnotation haa'
    obtain ⟨hsource', hannotation'⟩ := annotation_of_sameAnnotation hbb'
    obtain ⟨x', hx', hxx'⟩ := hannotation x hx
    obtain ⟨y', hy', hyy'⟩ := hannotation' y hy
    have hback : x'.same x = true := Annotation.same_equivalence.symm hxx'
    have hforth : x.same y' = true := Annotation.same_equivalence.trans hxy hyy'
    have hsame : x'.same y' = true := Annotation.same_equivalence.trans hback hforth
    -- The rules that are left for both have the same annotation, so they are one.
    have heq : a' = b' := by
      by_contra hne
      have : Std.Symm fun a b : Rule => ∀ x, a.annotation = some x → ∀ y, b.annotation = some y →
          x.same y = false := by
        refine ⟨fun a b h x hx y hy => ?_⟩
        have hcomm : x.same y = y.same x := Annotation.same_comm x y
        rw [hcomm]
        exact h y hy x hx
      have hapart := hpairwise.forall ha' hb' hne x' hx' y' hy'
      rw [hsame] at hapart
      cases hapart
    rw [hsource, heq, ← hsource']
  · intro hsources
    refine (pairwise_eraseDupsBy sameAnnotation rules).imp_of_mem ?_
    intro a b ha hb hapart x hx y hy
    by_contra hsame
    rw [Bool.not_eq_false] at hsame
    have hsource := hsources a ((eraseDupsBy_sublist _ _).mem ha) b
      ((eraseDupsBy_sublist _ _).mem hb) x y hx hy hsame
    have hlike := sameAnnotation_of_same hsource hx hy hsame
    rw [sameAnnotation_comm, hapart] at hlike
    cases hlike

end Lookup

end ApiTypes
