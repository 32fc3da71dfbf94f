import ApiTypes.Mapping.Lookup
import ApiTypes.Proofs.OpenApi.Endpoints
import ApiTypes.Proofs.Store.Renaming
import ApiTypes.Resolve.Walk

/-!
# Rules that were read

A rule is a record whose target and annotation are both optional, but a rule that was read from a
document has the one that its kind is about, and not the other one (`Rule.Sound`). Each way to read
a rule starts from a rule of one kind and gives it its target or its annotation, so the kind alone
tells what is there. This holds in every list of every scope, and no list for schemas has a rule for
the name of a parameter or for a content type (`Mapping.sound_of_ofValue`). Lookups tell nothing but
rules of these lists, and so nothing but sound ones.
-/

set_option autoImplicit false

namespace ApiTypes

namespace Rule

/-- A rule that gives a type: it has a target, and no annotation. -/
structure GivesType (rule : Rule) : Prop where
  /-- There is a target. -/
  target : rule.target.isSome = true
  /-- There is no annotation. -/
  annotation : rule.annotation = none

/-- A rule that adds an annotation: it has one, and nothing that belongs to a target. -/
structure AddsAnnotation (rule : Rule) : Prop where
  /-- There is an annotation. -/
  annotation : rule.annotation.isSome = true
  /-- There is no target. -/
  target : rule.target = none
  /-- There are no type arguments. -/
  generics : rule.generics = []

/-- A rule has what its kind is about, and nothing else. -/
def Sound (rule : Rule) : Prop :=
  match rule.kind with
  | .type => rule.GivesType
  | .use => rule.GivesType
  | .annotate => rule.AddsAnnotation

variable {rule found : Rule}

theorem Sound.of_kind_ne (h : rule.GivesType) (hkind : ¬ rule.kind = .annotate) : rule.Sound := by
  unfold Sound
  cases hk : rule.kind with
  | type => exact h
  | use => exact h
  | annotate => exact absurd hk hkind

theorem Sound.givesType (h : rule.Sound) (hkind : ¬ rule.kind = .annotate) : rule.GivesType := by
  unfold Sound at h
  cases hk : rule.kind with
  | type => rwa [hk] at h
  | use => rwa [hk] at h
  | annotate => exact absurd hk hkind

theorem Sound.addsAnnotation (h : rule.Sound) (hkind : rule.kind = .annotate) :
    rule.AddsAnnotation := by
  unfold Sound at h
  rwa [hkind] at h

/-! ## Reading a rule -/

/-- A rule without annotation that is given a target gives a type, and is of the kind that it
was. -/
theorem givesType_of_withTarget {body : List Char} {text : String}
    (h : rule.withTarget body text = .ok found) (hrule : rule.annotation = none) :
    found.GivesType ∧ found.kind = rule.kind := by
  unfold withTarget at h
  split at h
  · cases h
    exact ⟨⟨rfl, hrule⟩, rfl⟩
  · cases h

/-- Type arguments change nothing but the type arguments. -/
theorem givesType_of_addGenerics {texts : List String} (h : rule.addGenerics texts = .ok found)
    (hrule : rule.GivesType) : found.GivesType ∧ found.kind = rule.kind := by
  induction texts generalizing rule with
  | nil =>
      cases h
      exact ⟨hrule, rfl⟩
  | cons text rest ih =>
      rw [addGenerics] at h
      split at h
      · cases h
      · obtain ⟨hgives, hkind⟩ := ih h ⟨hrule.target, hrule.annotation⟩
        exact ⟨hgives, hkind⟩

/-- A rule for schemas on one line gives a type, or adds an annotation. -/
theorem sound_of_parseType {text : String} (h : parseType text = .ok found) :
    found.Sound ∧ ¬ found.kind = .use := by
  unfold parseType at h
  split at h
  · cases h
  · split at h
    · cases h
    · split at h
      · obtain ⟨hgives, hkind⟩ := givesType_of_withTarget h rfl
        exact ⟨.of_kind_ne hgives (by rw [hkind]; nofun), by rw [hkind]; nofun⟩
      · split at h
        · cases h
        · cases h
          exact ⟨⟨rfl, rfl, rfl⟩, nofun⟩

theorem sound_of_typeOfParts {source target : String}
    (h : typeOfParts source target = .ok found) : found.Sound ∧ ¬ found.kind = .use := by
  unfold typeOfParts at h
  split at h
  · cases h
  · obtain ⟨hgives, hkind⟩ := givesType_of_withTarget h rfl
    exact ⟨.of_kind_ne hgives (by rw [hkind]; nofun), by rw [hkind]; nofun⟩

theorem sound_of_useOfParts {source target : String}
    (h : useOfParts source target = .ok found) : found.Sound := by
  obtain ⟨hgives, hkind⟩ := givesType_of_withTarget h rfl
  exact .of_kind_ne hgives (by rw [hkind]; nofun)

theorem sound_of_parseUse {text : String} (h : parseUse text = .ok found) : found.Sound := by
  unfold parseUse at h
  split at h
  · cases h
  · split at h
    · cases h
    · simp only at h
      split at h
      · cases h
      · obtain ⟨hgives, hkind⟩ := givesType_of_withTarget h rfl
        exact .of_kind_ne hgives (by rw [hkind]; nofun)

end Rule

theorem ok_of_mapError {ε ε' α : Type} {x : Except ε α} {f : ε → ε'} {a : α}
    (h : x.mapError f = .ok a) : x = .ok a := by
  cases x with
  | error e => cases h
  | ok b =>
      cases h
      rfl

/-! ## Reading the rules of a document -/

/-- All rules of a scope are sound, and those of the list for schemas are for schemas. -/
structure RuleSet.Sound (s : RuleSet) : Prop where
  /-- All rules are sound. -/
  rules : ∀ rule ∈ s.all, rule.Sound
  /-- The list for schemas has no rule for a name or a content type. -/
  types : ∀ rule ∈ s.types, ¬ rule.kind = .use

namespace Mapping

/-- The scopes of a document: the whole API, and each path. -/
def scopes (m : Mapping) : List RuleSet :=
  m.global :: m.paths.values.map (·.rules)

variable {place : Section} {e : Entry} {rule : Rule}

theorem sound_of_useRule {name : String} {target : Option String}
    (h : useRule name target = .ok rule) : rule.Sound := by
  unfold useRule at h
  split at h
  · exact Rule.sound_of_useOfParts h
  · exact Rule.sound_of_parseUse h

/-- The rule of an entry is sound, and for schemas where the list is. -/
theorem sound_of_entryRule (h : entryRule place e = .ok rule) :
    rule.Sound ∧ (place = .types → ¬ rule.kind = .use) := by
  unfold entryRule at h
  split at h
  · obtain ⟨hsound, hkind⟩ := Rule.sound_of_parseType (ok_of_mapError h)
    exact ⟨hsound, fun _ => hkind⟩
  · obtain ⟨hsound, hkind⟩ := Rule.sound_of_typeOfParts (ok_of_mapError h)
    exact ⟨hsound, fun _ => hkind⟩
  · -- Only the lists for parameters and responses have rules for names and content types.
    split at h
    · exact ⟨sound_of_useRule (ok_of_mapError h), nofun⟩
    · exact ⟨sound_of_useRule (ok_of_mapError h), nofun⟩
    · cases h

/-- Further type arguments leave the rule of an entry sound. -/
theorem sound_of_normalize (h : normalize place e = .ok rule) :
    rule.Sound ∧ (place = .types → ¬ rule.kind = .use) := by
  unfold normalize at h
  obtain ⟨found, hfound, h⟩ := exists_of_bind_ok h
  obtain ⟨hsound, huse⟩ := sound_of_entryRule hfound
  by_cases hkind : found.kind = .annotate
  · rw [if_pos hkind] at h
    cases h
    exact ⟨hsound, huse⟩
  · rw [if_neg hkind] at h
    obtain ⟨hgives, hsame⟩ :=
      Rule.givesType_of_addGenerics (ok_of_mapError h) (hsound.givesType hkind)
    rw [hsame]
    exact ⟨.of_kind_ne hgives (by rwa [hsame]), huse⟩

theorem sound_of_ruleSet {entries : EntrySet} {s : RuleSet} (h : ruleSet entries = .ok s) :
    s.Sound := by
  unfold ruleSet at h
  obtain ⟨types, htypes, h⟩ := exists_of_bind_ok h
  obtain ⟨parameters, hparameters, h⟩ := exists_of_bind_ok h
  obtain ⟨responses, hresponses, h⟩ := exists_of_bind_ok h
  cases h
  constructor
  · intro rule hrule
    rcases List.mem_append.mp hrule with hrule | hrule
    · rcases List.mem_append.mp hrule with hrule | hrule
      · obtain ⟨e, _, he⟩ := exists_of_mem_mapM htypes hrule
        exact (sound_of_normalize he).1
      · obtain ⟨e, _, he⟩ := exists_of_mem_mapM hparameters hrule
        exact (sound_of_normalize he).1
    · obtain ⟨e, _, he⟩ := exists_of_mem_mapM hresponses hrule
      exact (sound_of_normalize he).1
  · intro rule hrule
    obtain ⟨e, _, he⟩ := exists_of_mem_mapM htypes hrule
    exact (sound_of_normalize he).2 rfl

/-- What a document that was read is made of. -/
theorem exists_of_ofValue {v : Value} {m : Mapping} (h : ofValue v = .ok m) :
    ∃ raw globalEntries pathEntries paths,
      contents? v = some (raw, globalEntries, pathEntries) ∧
      ruleSet globalEntries = .ok m.global ∧
      (pathEntries.mapM fun entry => do
        return (entry.1, { exclude := entry.2.exclude, rules := ← ruleSet entry.2 : PathMapping }))
        = .ok paths ∧ m.paths = .ofList paths := by
  unfold ofValue at h
  by_cases hobject : v.members?.isNone = true
  · rw [if_pos hobject] at h
    cases h
  · rw [if_neg hobject] at h
    cases hversion : version? v with
    | none =>
        rw [hversion] at h
        cases h
    | some found =>
        rw [hversion] at h
        simp only at h
        split at h
        · cases h
        · cases hcontents : contents? v with
          | none =>
              rw [hcontents] at h
              cases h
          | some found =>
              obtain ⟨raw, globalEntries, pathEntries⟩ := found
              rw [hcontents] at h
              obtain ⟨rules, hrules, h⟩ := exists_of_bind_ok h
              obtain ⟨paths, hpaths, h⟩ := exists_of_bind_ok h
              obtain ⟨options, _, h⟩ := exists_of_bind_ok h
              cases h
              exact ⟨raw, globalEntries, pathEntries, paths, rfl, hrules, hpaths, rfl⟩

/-- **Every scope of a document that was read is sound.** -/
theorem sound_of_ofValue {v : Value} {m : Mapping} (h : ofValue v = .ok m) :
    ∀ s ∈ m.scopes, s.Sound := by
  obtain ⟨raw, globalEntries, pathEntries, paths, _, hglobal, hpaths, heq⟩ := exists_of_ofValue h
  intro s hs
  rcases List.mem_cons.mp hs with rfl | hs
  · exact sound_of_ruleSet hglobal
  · obtain ⟨found, hfound, rfl⟩ := List.mem_map.mp hs
    rw [heq] at hfound
    obtain ⟨⟨path, _⟩, hentry, rfl⟩ := List.mem_map.mp (OrderedMap.mem_values_ofList hfound)
    obtain ⟨entry, _, hread⟩ := exists_of_mem_mapM hpaths hentry
    obtain ⟨rules, hrules, hpure⟩ := exists_of_bind_ok hread
    cases hpure
    exact sound_of_ruleSet hrules

end Mapping

/-! ## Rules that are looked up -/

namespace Lookup

variable {mappings : List Mapping} {path : Option String} {use : Use} {features : SchemaFeatures}
  {rule : Rule} {scope : Nat × RuleSet} {ofPath : Bool}

/-- All scopes of some documents are sound. -/
def AllSound (mappings : List Mapping) : Prop :=
  ∀ m ∈ mappings, ∀ s ∈ m.scopes, s.Sound

theorem AllSound.globalScopes (h : AllSound mappings) :
    ∀ scope ∈ globalScopes mappings, scope.2.Sound := by
  intro scope hscope
  obtain ⟨⟨m, document⟩, hm, rfl⟩ := List.mem_map.mp hscope
  exact h m (List.mem_of_getElem? (List.mem_zipIdx_iff_getElem?.mp hm)) _ List.mem_cons_self

theorem AllSound.pathScopes (h : AllSound mappings) :
    ∀ scope ∈ pathScopes mappings path, scope.2.Sound := by
  intro scope hscope
  cases path with
  | none => cases hscope
  | some p =>
      obtain ⟨⟨m, document⟩, hm, hfound⟩ := List.mem_filterMap.mp hscope
      obtain ⟨found, hget, rfl⟩ := Option.map_eq_some_iff.mp hfound
      have hvalue : found ∈ m.paths.values :=
        List.mem_map.mpr ⟨(p, found), mem_of_findValue? hget, rfl⟩
      exact h m (List.mem_of_getElem? (List.mem_zipIdx_iff_getElem?.mp hm)) _
        (List.mem_cons_of_mem _ (List.mem_map_of_mem hvalue))

theorem mem_of_mem_placed {document : Nat} {place : Section} {rules : List Rule}
    {found : PlacedRule} (h : found ∈ placed ofPath document place rules) : found.2 ∈ rules := by
  obtain ⟨⟨rule, index⟩, hrule, rfl⟩ := List.mem_map.mp h
  exact List.mem_of_getElem? (List.mem_zipIdx_iff_getElem?.mp hrule)

/-- A rule that is looked at for a use alone is one of its scope. -/
theorem mem_all_of_mem_useRules {found : PlacedRule} (h : found ∈ useRules ofPath use scope) :
    found.2 ∈ scope.2.all := by
  cases use with
  | schema => cases h
  | parameter name =>
      exact List.mem_append_left _ (List.mem_append_right _ (mem_of_mem_placed h))
  | response contentType => exact List.mem_append_right _ (mem_of_mem_placed h)

/-- A rule that is looked at for a use is one of its scope. -/
theorem mem_all_of_mem_candidates {found : PlacedRule}
    (h : found ∈ candidates ofPath use scope) : found.2 ∈ scope.2.all := by
  rcases List.mem_append.mp h with h | h
  · exact List.mem_append_left _ (List.mem_append_left _ (mem_of_mem_placed h))
  · exact mem_all_of_mem_useRules h

/-- How rules of a scope are looked at: none are told that are not in the scope. -/
def WithinScope (rules : Bool → Nat × RuleSet → List PlacedRule) : Prop :=
  ∀ ofPath scope, ∀ found ∈ rules ofPath scope, found.2 ∈ scope.2.all

theorem withinScope_useRules (use : Use) : WithinScope fun ofPath => useRules ofPath use :=
  fun _ _ _ => mem_all_of_mem_useRules

theorem withinScope_candidates (use : Use) : WithinScope fun ofPath => candidates ofPath use :=
  fun _ _ _ => mem_all_of_mem_candidates

variable {rules : Bool → Nat × RuleSet → List PlacedRule}

/-- A rule that wins is sound, and is one that is wanted. -/
theorem AllSound.of_winner? (h : AllSound mappings) (hrules : WithinScope rules)
    {wanted : Rule → Bool} {found : PlacedRule}
    (hwinner : winner? mappings path rules wanted = some found) :
    found.2.Sound ∧ wanted found.2 = true := by
  have hlast : ∀ ofPath (scopes : Scopes), (∀ scope ∈ scopes, scope.2.Sound) →
      ((scopes.flatMap (rules ofPath)).filter fun r => wanted r.2).getLast? = some found →
      found.2.Sound ∧ wanted found.2 = true := by
    intro ofPath scopes hscopes hfound
    obtain ⟨hmem, hwanted⟩ := List.mem_filter.mp (List.mem_of_getLast? hfound)
    obtain ⟨scope, hscope, hmem⟩ := List.mem_flatMap.mp hmem
    exact ⟨(hscopes scope hscope).rules _ (hrules ofPath scope found hmem), hwanted⟩
  rcases Option.or_eq_some_iff.mp hwinner with hpath | ⟨_, hglobal⟩
  · exact hlast true _ h.pathScopes hpath
  · exact hlast false _ h.globalScopes hglobal

/-- **The rule for a name or a content type has a target.** -/
theorem AllSound.of_useRule? (h : AllSound mappings)
    (hrule : useRule? mappings path use = some rule) : rule.GivesType := by
  unfold useRule? at hrule
  split at hrule
  · cases hrule
  · obtain ⟨found, hfound, rfl⟩ := Option.map_eq_some_iff.mp hrule
    obtain ⟨hsound, hwanted⟩ := h.of_winner? (withinScope_useRules use) hfound
    have hkind : found.2.kind = .use := by
      simpa using (Bool.and_eq_true_iff.mp hwanted).1
    exact hsound.givesType (by rw [hkind]; nofun)

theorem AllSound.of_placedTypeRule? (h : AllSound mappings) {found : PlacedRule}
    (hfound : placedTypeRule? mappings path use features = some found) :
    found.2.GivesType := by
  obtain ⟨hsound, hwanted⟩ := h.of_winner? (withinScope_candidates use) hfound
  have hkind : found.2.kind = .type := by
    simpa using (Bool.and_eq_true_iff.mp hwanted).1
  exact hsound.givesType (by rw [hkind]; nofun)

/-- **The rule that gives a schema its type has a target.** -/
theorem AllSound.of_typeRule? (h : AllSound mappings)
    (hrule : typeRule? mappings path use features = some rule) : rule.GivesType := by
  obtain ⟨found, hfound, rfl⟩ := Option.map_eq_some_iff.mp hrule
  exact h.of_placedTypeRule? hfound

/-- The rule that gives a schema its type in one use has a target. -/
theorem AllSound.of_usageTypeRule? (h : AllSound mappings)
    (hrule : usageTypeRule? mappings path use features = some rule) : rule.GivesType := by
  unfold usageTypeRule? at hrule
  split at hrule
  · cases hrule
  · rename_i place found hfound
    have hgives := h.of_placedTypeRule? hfound
    split at hrule
    · split at hrule
      · cases hrule
      · cases hrule
        exact hgives
    · cases hrule
      exact hgives

theorem mem_of_mem_foldl_addNew {found rest : List Rule}
    (h : rule ∈ rest.foldl addNew found) : rule ∈ found ∨ rule ∈ rest := by
  induction rest generalizing found with
  | nil => exact Or.inl h
  | cons first rest ih =>
      rcases ih h with hfound | hrest
      · unfold addNew at hfound
        split at hfound
        · exact Or.inl hfound
        · rcases List.mem_append.mp hfound with hfound | hfirst
          · exact Or.inl hfound
          · rw [List.mem_singleton.mp hfirst]
            exact Or.inr List.mem_cons_self
      · exact Or.inr (List.mem_cons_of_mem _ hrest)

/-- A rule that is collected adds an annotation, and has it. -/
theorem AllSound.of_mem_collectAnnotateRules (h : AllSound mappings) (hrules : WithinScope rules)
    (hrule : rule ∈ collectAnnotateRules mappings path rules features) :
    rule.AddsAnnotation := by
  rcases mem_of_mem_foldl_addNew hrule with hnil | hmem
  · cases hnil
  · obtain ⟨hmem, hwanted⟩ := List.mem_filter.mp hmem
    have hkind : rule.kind = .annotate := by
      simpa using (Bool.and_eq_true_iff.mp hwanted).1
    obtain ⟨found, hfound, rfl⟩ := List.mem_map.mp hmem
    refine Rule.Sound.addsAnnotation ?_ hkind
    rcases List.mem_append.mp hfound with hfound | hfound
    · obtain ⟨scope, hscope, hfound⟩ := List.mem_flatMap.mp hfound
      exact (h.pathScopes scope hscope).rules _ (hrules true scope found hfound)
    · obtain ⟨scope, hscope, hfound⟩ := List.mem_flatMap.mp hfound
      exact (h.globalScopes scope hscope).rules _ (hrules false scope found hfound)

/-- Where every rule adds an annotation, none is lost when the annotations are taken. -/
theorem map_annotation?_eq {found : List Rule} (h : ∀ rule ∈ found, rule.AddsAnnotation) :
    found.map (·.annotation?) = (found.filterMap (·.annotation?)).map some := by
  induction found with
  | nil => rfl
  | cons rule rest ih =>
      have hadds := h rule List.mem_cons_self
      obtain ⟨a, ha⟩ := Option.isSome_iff_exists.mp hadds.annotation
      have hrule : rule.annotation? = some a := ha
      rw [List.map_cons, List.filterMap_cons_some hrule, List.map_cons, hrule,
        ih fun other hother => h other (List.mem_cons_of_mem _ hother)]

end Lookup

end ApiTypes
