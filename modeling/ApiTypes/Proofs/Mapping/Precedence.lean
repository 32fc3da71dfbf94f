import ApiTypes.Mapping.Lookup
import Mathlib.Data.List.Basic

/-!
# Which rule wins

Rules that could give a schema its type are told apart by their places. Places are in an order:
rules of the whole API are below those of the path, earlier documents below later ones, the list for
schemas below the one for the use, and earlier rules below later ones (`RulePlace.Below`). Of the
rules that match, the one at the highest place wins (`Lookup.Wins`), and the lookup finds it, since it
walks over rules from lower to higher places and takes the last one that matches.

The lookup for a use alone gives the winner exactly if it stands in the list for the use
(`Lookup.usageTypeRule?_eq_some_iff`). It never sees which list that is: it looks again for schemas,
and gives the winner unless the same place comes back. What rules say does not matter, so a rule
that is written once more somewhere else changes nothing.
-/

set_option autoImplicit false

namespace ApiTypes

/-! ## The order of places -/

/-- A place is below another one: a rule at the other one wins. -/
inductive RulePlace.Below : RulePlace → RulePlace → Prop
  /-- Rules of the path win over those of the whole API. -/
  | scope {document document' index index' : Nat} {place place' : Section} :
      Below ⟨false, document, place, index⟩ ⟨true, document', place', index'⟩
  /-- In a scope, rules of later documents win. -/
  | document {ofPath : Bool} {document document' index index' : Nat} {place place' : Section} :
      document < document' →
      Below ⟨ofPath, document, place, index⟩ ⟨ofPath, document', place', index'⟩
  /-- In a document, rules of the list for a use win over those of the list for schemas. -/
  | list {ofPath : Bool} {document index index' : Nat} {place : Section} :
      place ≠ .types →
      Below ⟨ofPath, document, .types, index⟩ ⟨ofPath, document, place, index'⟩
  /-- In a list, later rules win. -/
  | index {ofPath : Bool} {document index index' : Nat} {place : Section} :
      index < index' →
      Below ⟨ofPath, document, place, index⟩ ⟨ofPath, document, place, index'⟩

theorem RulePlace.Below.asymm {p q : RulePlace} (h : p.Below q) : ¬ q.Below p := by
  intro h'
  cases h with
  | scope => cases h'
  | document hlt =>
      cases h' with
      | document hlt' => omega
      | list _ => omega
      | index _ => omega
  | list hne =>
      cases h' with
      | document hlt => omega
      | list _ => exact hne rfl
      | index _ => exact hne rfl
  | index hlt =>
      cases h' with
      | document hlt' => omega
      | list hne => exact hne rfl
      | index hlt' => omega

namespace Lookup

variable {mappings : List Mapping} {path : Option String} {use : Use} {features : SchemaFeatures}
  {p q : RulePlace} {rule other : Rule}

/-! ## The rule that wins -/

/-- The rules that a document has for the path, or for the whole API. -/
def scope? (mappings : List Mapping) (path : Option String) (ofPath : Bool) (document : Nat) :
    Option RuleSet :=
  mappings[document]?.bind fun m =>
    if ofPath then path.bind fun path => (m.paths.get? path).map (·.rules) else some m.global

/-- The rule that stands at a place. -/
def ruleAt? (mappings : List Mapping) (path : Option String) (p : RulePlace) : Option Rule :=
  (scope? mappings path p.ofPath p.document).bind fun rules => (rules.rulesOf p.place)[p.index]?

/-- The rule at a place could give a schema its type in a use. -/
structure Competes (mappings : List Mapping) (path : Option String) (use : Use)
    (features : SchemaFeatures) (p : RulePlace) (rule : Rule) : Prop where
  /-- The rule stands at the place. -/
  ruleAt?_eq : ruleAt? mappings path p = some rule
  /-- The list is the one for schemas, or the one for the use. -/
  place : p.place = .types ∨ use.section? = some p.place
  /-- The rule gives a type. -/
  kind : rule.kind = .type
  /-- The rule matches the schema. -/
  matches_eq : features.matches rule.source = true

/-- The rule at a place wins: all others that compete with it are below it. -/
structure Wins (mappings : List Mapping) (path : Option String) (use : Use)
    (features : SchemaFeatures) (p : RulePlace) (rule : Rule) : Prop where
  /-- The rule competes. -/
  competes : Competes mappings path use features p rule
  /-- It is at the highest place. -/
  highest : ∀ q other, Competes mappings path use features q other → q = p ∨ q.Below p

theorem Use.section?_ne_types (h : use.section? = some p.place) : p.place ≠ .types := by
  intro htypes
  rw [htypes] at h
  cases use with
  | schema => cases h
  | parameter name => cases h
  | response contentType => cases h

/-! ## Rules in the order of their places -/

theorem mem_placed {ofPath : Bool} {document : Nat} {place : Section} {rules : List Rule} :
    (p, rule) ∈ placed ofPath document place rules ↔
      p.ofPath = ofPath ∧ p.document = document ∧ p.place = place ∧
        rules[p.index]? = some rule := by
  rw [placed, List.mem_map]
  constructor
  · rintro ⟨⟨found, index⟩, hmem, heq⟩
    cases heq
    exact ⟨rfl, rfl, rfl, List.mem_zipIdx_iff_getElem?.mp hmem⟩
  · rintro ⟨rfl, rfl, rfl, hrule⟩
    exact ⟨(rule, p.index), List.mem_zipIdx_iff_getElem?.mpr hrule, rfl⟩

theorem mem_candidates {ofPath : Bool} {scope : Nat × RuleSet} :
    (p, rule) ∈ candidates ofPath use scope ↔
      p.ofPath = ofPath ∧ p.document = scope.1 ∧ (p.place = .types ∨ use.section? = some p.place) ∧
        (scope.2.rulesOf p.place)[p.index]? = some rule := by
  rw [candidates, List.mem_append, mem_placed]
  constructor
  · rintro (⟨hscope, hdocument, hplace, hrule⟩ | hmem)
    · exact ⟨hscope, hdocument, .inl hplace, by rw [hplace]; exact hrule⟩
    · cases hsection : use.section? with
      | none => simp [useRules, hsection] at hmem
      | some place =>
          simp only [useRules, hsection, mem_placed] at hmem
          obtain ⟨hscope, hdocument, rfl, hrule⟩ := hmem
          exact ⟨hscope, hdocument, .inr rfl, hrule⟩
  · rintro ⟨hscope, hdocument, hplace | hsection, hrule⟩
    · rw [hplace] at hrule
      exact .inl ⟨hscope, hdocument, hplace, hrule⟩
    · apply Or.inr
      simp only [useRules, hsection, mem_placed]
      exact ⟨hscope, hdocument, trivial, hrule⟩

/-- The scopes of the path, or of the whole API. -/
def scopes (mappings : List Mapping) (path : Option String) : Bool → Scopes
  | false => globalScopes mappings
  | true => pathScopes mappings path

theorem mem_scopes {ofPath : Bool} {scope : Nat × RuleSet} :
    scope ∈ scopes mappings path ofPath ↔ scope? mappings path ofPath scope.1 = some scope.2 := by
  obtain ⟨document, rules⟩ := scope
  cases ofPath with
  | false =>
      simp [scopes, globalScopes, scope?, List.mem_zipIdx_iff_getElem?, Option.bind_eq_some_iff]
  | true =>
      cases path with
      | none => simp [scopes, pathScopes, scope?]
      | some path =>
          simp [scopes, pathScopes, scope?, List.mem_zipIdx_iff_getElem?, Option.bind_eq_some_iff]

/-- All rules of the path, or of the whole API, for schemas and for a use, those at lower places
first. -/
def inScopes (mappings : List Mapping) (path : Option String) (use : Use) (ofPath : Bool) :
    List PlacedRule :=
  (scopes mappings path ofPath).flatMap (candidates ofPath use)

theorem mem_inScopes {ofPath : Bool} :
    (p, rule) ∈ inScopes mappings path use ofPath ↔
      p.ofPath = ofPath ∧ ruleAt? mappings path p = some rule ∧
        (p.place = .types ∨ use.section? = some p.place) := by
  rw [inScopes, List.mem_flatMap, ruleAt?, Option.bind_eq_some_iff]
  constructor
  · rintro ⟨⟨document, rules⟩, hscope, hmem⟩
    obtain ⟨rfl, rfl, hplace, hrule⟩ := mem_candidates.mp hmem
    exact ⟨rfl, ⟨rules, mem_scopes.mp hscope, hrule⟩, hplace⟩
  · rintro ⟨rfl, ⟨rules, hscope, hrule⟩, hplace⟩
    exact ⟨(p.document, rules), mem_scopes.mpr hscope,
      mem_candidates.mpr ⟨rfl, rfl, hplace, hrule⟩⟩

/-- All rules for schemas and for a use, those at lower places first. -/
def inOrder (mappings : List Mapping) (path : Option String) (use : Use) : List PlacedRule :=
  inScopes mappings path use false ++ inScopes mappings path use true

theorem mem_inOrder :
    (p, rule) ∈ inOrder mappings path use ↔
      ruleAt? mappings path p = some rule ∧ (p.place = .types ∨ use.section? = some p.place) := by
  rw [inOrder, List.mem_append, mem_inScopes, mem_inScopes]
  cases p.ofPath with
  | false => simp
  | true => simp

theorem pairwise_zipIdx {α : Type} (l : List α) :
    l.zipIdx.Pairwise fun a b => a.2 < b.2 := by
  rw [← List.pairwise_map, List.zipIdx_map_snd]
  exact List.pairwise_lt_range'

theorem pairwise_placed {ofPath : Bool} {document : Nat} {place : Section} {rules : List Rule} :
    (placed ofPath document place rules).Pairwise fun a b => a.1.Below b.1 := by
  rw [placed, List.pairwise_map]
  exact (pairwise_zipIdx rules).imp .index

theorem pairwise_candidates {ofPath : Bool} {scope : Nat × RuleSet} :
    (candidates ofPath use scope).Pairwise fun a b => a.1.Below b.1 := by
  obtain ⟨document, rules⟩ := scope
  cases hsection : use.section? with
  | none => simpa [candidates, useRules, hsection] using pairwise_placed
  | some place =>
      simp only [candidates, useRules, hsection]
      apply List.pairwise_append.mpr
      refine ⟨pairwise_placed, pairwise_placed, ?_⟩
      rintro ⟨⟨_, _, _, index⟩, rule⟩ hp ⟨⟨_, _, _, index'⟩, other⟩ hq
      obtain ⟨rfl, rfl, rfl, -⟩ := mem_placed.mp hp
      obtain ⟨rfl, rfl, rfl, -⟩ := mem_placed.mp hq
      exact .list (Use.section?_ne_types hsection)

/-- Scopes come in the order of their documents. -/
theorem pairwise_scopes {ofPath : Bool} :
    (scopes mappings path ofPath).Pairwise fun a b => a.1 < b.1 := by
  cases ofPath with
  | false =>
      rw [scopes, globalScopes, List.pairwise_map]
      exact pairwise_zipIdx mappings
  | true =>
      cases path with
      | none => exact .nil
      | some path =>
          rw [scopes, pathScopes, List.pairwise_filterMap]
          apply (pairwise_zipIdx mappings).imp
          rintro ⟨m, document⟩ ⟨m', document'⟩ hlt scope hscope scope' hscope'
          obtain ⟨found, -, rfl⟩ := Option.map_eq_some_iff.mp hscope
          obtain ⟨found', -, rfl⟩ := Option.map_eq_some_iff.mp hscope'
          exact hlt

theorem pairwise_inScopes {ofPath : Bool} :
    (inScopes mappings path use ofPath).Pairwise fun a b => a.1.Below b.1 := by
  apply List.pairwise_flatMap.mpr
  refine ⟨fun scope _ => pairwise_candidates, pairwise_scopes.imp ?_⟩
  rintro ⟨document, rules⟩ ⟨document', rules'⟩ hlt
  rintro ⟨⟨_, _, place, index⟩, rule⟩ hp ⟨⟨_, _, place', index'⟩, other⟩ hq
  obtain ⟨rfl, rfl, -⟩ := mem_candidates.mp hp
  obtain ⟨rfl, rfl, -⟩ := mem_candidates.mp hq
  exact .document hlt

theorem pairwise_inOrder :
    (inOrder mappings path use).Pairwise fun a b => a.1.Below b.1 := by
  apply List.pairwise_append.mpr
  refine ⟨pairwise_inScopes, pairwise_inScopes, ?_⟩
  rintro ⟨⟨_, _, _, _⟩, rule⟩ hp ⟨⟨_, _, _, _⟩, other⟩ hq
  obtain ⟨rfl, -⟩ := mem_inScopes.mp hp
  obtain ⟨rfl, -⟩ := mem_inScopes.mp hq
  exact .scope

/-- The last of elements in ascending order is the highest one. -/
theorem getLast?_eq_some_iff_of_pairwise {α : Type} {r : α → α → Prop} {l : List α} {a : α}
    (hl : l.Pairwise r) (hasymm : ∀ a b, r a b → ¬ r b a) :
    l.getLast? = some a ↔ a ∈ l ∧ ∀ b ∈ l, b = a ∨ r b a := by
  constructor
  · intro hlast
    obtain ⟨before, rfl⟩ := List.getLast?_eq_some_iff.mp hlast
    refine ⟨by simp, ?_⟩
    intro b hb
    rcases List.mem_append.mp hb with hb | hb
    · exact .inr ((List.pairwise_append.mp hl).2.2 b hb a (by simp))
    · exact .inl (List.mem_singleton.mp hb)
  · rintro ⟨ha, hhighest⟩
    obtain ⟨last, hlast⟩ : ∃ last, l.getLast? = some last :=
      ⟨_, List.getLast?_eq_some_getLast (List.ne_nil_of_mem ha)⟩
    obtain ⟨before, rfl⟩ := List.getLast?_eq_some_iff.mp hlast
    rcases List.mem_append.mp ha with ha | ha
    · have hbelow : r a last := (List.pairwise_append.mp hl).2.2 a ha last (by simp)
      rcases hhighest last (by simp) with rfl | habove
      · exact hlast
      · exact absurd habove (hasymm a last hbelow)
    · rw [hlast, List.mem_singleton.mp ha]

/-! ## Lookups -/

theorem placedTypeRule?_eq_getLast? :
    placedTypeRule? mappings path use features
      = ((inOrder mappings path use).filter fun r =>
          r.2.kind == .type && features.matches r.2.source).getLast? := by
  rw [placedTypeRule?, winner?, inOrder, List.filter_append, List.getLast?_append]
  rfl

theorem mem_filter_inOrder :
    (p, rule) ∈ ((inOrder mappings path use).filter fun r =>
        r.2.kind == .type && features.matches r.2.source) ↔
      Competes mappings path use features p rule := by
  rw [List.mem_filter, mem_inOrder, Bool.and_eq_true, beq_iff_eq]
  constructor
  · rintro ⟨⟨hrule, hplace⟩, hkind, hmatches⟩
    exact ⟨hrule, hplace, hkind, hmatches⟩
  · rintro ⟨hrule, hplace, hkind, hmatches⟩
    exact ⟨⟨hrule, hplace⟩, hkind, hmatches⟩

/-- The lookup finds the rule that wins. -/
theorem placedTypeRule?_eq_some_iff_wins :
    placedTypeRule? mappings path use features = some (p, rule) ↔
      Wins mappings path use features p rule := by
  rw [placedTypeRule?_eq_getLast?, getLast?_eq_some_iff_of_pairwise
    (pairwise_inOrder.filter _) fun a b => RulePlace.Below.asymm, mem_filter_inOrder]
  constructor
  · rintro ⟨hcompetes, hhighest⟩
    refine ⟨hcompetes, ?_⟩
    intro q other hother
    exact (hhighest (q, other) (mem_filter_inOrder.mpr hother)).imp_left (congrArg Prod.fst)
  · rintro ⟨hcompetes, hhighest⟩
    refine ⟨hcompetes, ?_⟩
    rintro ⟨q, other⟩ hmem
    have hother := mem_filter_inOrder.mp hmem
    apply (hhighest q other hother).imp_left
    rintro rfl
    -- One rule stands at a place.
    cases hother.ruleAt?_eq.symm.trans hcompetes.ruleAt?_eq
    rfl

/-- A rule that wins in a use from the list for schemas wins for schemas. -/
theorem Wins.schema (h : Wins mappings path use features p rule) (htypes : p.place = .types) :
    Wins mappings path .schema features p rule := by
  refine ⟨⟨h.competes.ruleAt?_eq, .inl htypes, h.competes.kind, h.competes.matches_eq⟩, ?_⟩
  intro q other hother
  apply h.highest q other
  refine ⟨hother.ruleAt?_eq, ?_, hother.kind, hother.matches_eq⟩
  exact hother.place.imp_right nofun

theorem Wins.place_of_schema (h : Wins mappings path .schema features p rule) :
    p.place = .types :=
  h.competes.place.resolve_right nofun

theorem Wins.usageTypeRule?_eq_none (h : Wins mappings path use features p rule)
    (htypes : p.place = .types) : usageTypeRule? mappings path use features = none := by
  have hplain := placedTypeRule?_eq_some_iff_wins.mpr (h.schema htypes)
  simp [usageTypeRule?, placedTypeRule?_eq_some_iff_wins.mpr h, hplain]

theorem Wins.usageTypeRule?_eq_some (h : Wins mappings path use features p rule)
    (hsection : use.section? = some p.place) :
    usageTypeRule? mappings path use features = some rule := by
  simp only [usageTypeRule?, placedTypeRule?_eq_some_iff_wins.mpr h]
  cases hplain : placedTypeRule? mappings path .schema features with
  | none => rfl
  | some plain =>
      obtain ⟨q, other⟩ := plain
      have hne : q ≠ p := by
        rintro rfl
        have htypes := (placedTypeRule?_eq_some_iff_wins.mp hplain).place_of_schema
        exact Use.section?_ne_types hsection htypes
      simp [hne]

/-- **The rule for a use alone is the rule that wins, if it stands in the list for the use.** A rule
is found, with its place, exactly if it wins; and it is found for the use alone exactly if, besides,
it stands in the list for the use. -/
theorem usageTypeRule?_eq_some_iff :
    (∀ p rule, placedTypeRule? mappings path use features = some (p, rule) ↔
        Wins mappings path use features p rule) ∧
      (∀ rule, typeRule? mappings path use features = some rule ↔
        ∃ p, Wins mappings path use features p rule) ∧
      ∀ rule, usageTypeRule? mappings path use features = some rule ↔
        ∃ p, Wins mappings path use features p rule ∧ use.section? = some p.place := by
  refine ⟨fun p rule => placedTypeRule?_eq_some_iff_wins, ?_, ?_⟩
  · intro rule
    simp [typeRule?, ← placedTypeRule?_eq_some_iff_wins]
  · intro rule
    constructor
    · intro hrule
      cases hfound : placedTypeRule? mappings path use features with
      | none => simp [usageTypeRule?, hfound] at hrule
      | some found =>
          obtain ⟨p, won⟩ := found
          have hwins := placedTypeRule?_eq_some_iff_wins.mp hfound
          rcases hwins.competes.place with htypes | hsection
          · rw [hwins.usageTypeRule?_eq_none htypes] at hrule
            cases hrule
          · rw [hwins.usageTypeRule?_eq_some hsection] at hrule
            cases hrule
            exact ⟨p, hwins, hsection⟩
    · rintro ⟨p, hwins, hsection⟩
      exact hwins.usageTypeRule?_eq_some hsection

end Lookup

end ApiTypes
