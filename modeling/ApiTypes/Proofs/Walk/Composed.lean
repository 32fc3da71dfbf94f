import ApiTypes.Proofs.Store.Bounds
import ApiTypes.Proofs.Walk.Components

/-!
# Composed schemas and their slots

A schema is composed if it has constituents and no rule gives it a type; then it leads to its
constituents and to nothing else. Only what composed schemas demand has constituents
(`simple_demand`), and a slot whose type has some is remembered for exactly one schema
(`TypeStore.Indexed`). So a slot with constituents is that of a composed schema, and its
constituents are slots of schemas that the composed one leads to (`Settled.exists_composes`).
-/

set_option autoImplicit false

namespace ApiTypes

/-! ## Types without constituents -/

namespace ModelType

theorem constituents_rename (f : TypeId → TypeId) (t : ModelType) :
    (t.rename f).constituents = t.constituents.map f := by
  cases t with
  | _ => rfl

theorem constituents_eq_nil {t : ModelType} (h : t.references = []) : t.constituents = [] := by
  cases t with
  | allOf name package items d => exact h
  | _ => rfl

end ModelType

theorem Demand.constituents_filled_eq_nil {shape : ModelType} (h : shape.constituents = [])
    (found : List (TypeId × Bool)) : (filled shape found).constituents = [] := by
  cases shape with
  | allOf name package items d =>
      have hitems : items = [] := h
      rw [hitems]
      rfl
  | _ => rfl

/-- No type of a demand has constituents. -/
def Demand.Simple : Demand → Prop
  | fault _ => True
  | block inner last => ∀ t ∈ inner ++ [last], t.constituents = []
  | wrapper _ shape => shape.constituents = []
  | composite _ shape => shape.constituents = []

/-- If the type may be found early, it may be a constituent. -/
def Demand.Joinable (demand : Demand) : Prop :=
  demand.isComposite = true → demand.makesConstituent = true

namespace Target

mutual

theorem constituents_of_mem_typesFrom (start : Nat) : ∀ (t : Target) (m : ModelType),
    m ∈ typesFrom start t → m.constituents = []
  | ⟨name, args⟩, m, hm => by
      rw [typesFrom, List.mem_append, List.mem_singleton] at hm
      rcases hm with hm | rfl
      · exact constituents_of_mem_allTypesFrom start args m hm
      · rfl

/-- Type arguments have no constituents. -/
theorem constituents_of_mem_allTypesFrom (start : Nat) : ∀ (ts : List Target) (m : ModelType),
    m ∈ allTypesFrom start ts → m.constituents = []
  | [], m, hm => by cases hm
  | t :: rest, m, hm => by
      rw [allTypesFrom, List.mem_append] at hm
      rcases hm with hm | hm
      · exact constituents_of_mem_typesFrom start t m hm
      · exact constituents_of_mem_allTypesFrom _ rest m hm

end

end Target

namespace Resolver

section Simple

variable (r : Resolver) (path : Option String) (n : SchemaNode) (name : String)

theorem simple_single {t : ModelType} (h : t.references = []) : (Demand.block [] t).Simple := by
  intro u hu
  rw [List.nil_append, List.mem_singleton] at hu
  rw [hu, ModelType.constituents_eq_nil h]

theorem simple_demandOfRule (rule : Rule) : (r.demandOfRule n name rule).Simple := by
  refine demandOfRule_cases (fun _ => trivial) (fun _ _ _ => rfl) fun target t ht => ?_
  rcases List.mem_append.mp ht with ht | ht
  · exact Target.constituents_of_mem_allTypesFrom 0 target.args t ht
  · rw [List.mem_singleton.mp ht]
    rfl

theorem simple_demandOfType : (r.demandOfType n name).Simple := by
  refine demandOfType_cases (fun _ => trivial) (fun _ => simple_single) (fun _ _ => rfl) ?_
    (fun _ _ => rfl) rfl
  intro t ht
  simp only [List.cons_append, List.nil_append, List.mem_cons, List.not_mem_nil, or_false] at ht
  rcases ht with rfl | rfl
  · rfl
  · rfl

theorem joinable_demandOfRule (rule : Rule) : (r.demandOfRule n name rule).Joinable :=
  demandOfRule_cases (fun _ => nofun) (fun _ _ _ => nofun) fun _ => nofun

theorem joinable_demandOfType : (r.demandOfType n name).Joinable :=
  demandOfType_cases (fun _ => nofun) (fun _ _ => nofun) (fun _ _ => nofun) nofun
    (fun _ _ => nofun) fun _ => rfl

/-- What a use demands for itself has no constituents. -/
theorem simple_useDemand {use : Use} {w : Visit} {demand : Demand}
    (h : r.useDemand path use w = some demand) : demand.Simple :=
  useDemand_cases r path (fun _ => trivial) (fun _ => simple_single)
    (simple_demandOfRule r w.node w.name) h

end Simple

/-! ## Composed schemas -/

/-- A schema that no rule gives a type, and that has constituents. -/
structure Composed (r : Resolver) (path : Option String) (v : Visit) : Prop where
  /-- No rule gives it a type. -/
  typeRule?_eq : Lookup.typeRule? r.mappings path .schema v.features = none
  /-- It has constituents. -/
  allOf_ne : ¬ v.node.allOf = []

/-- A schema that no rule gives a type, and that has alternatives and no constituents. -/
structure HasAlternatives (r : Resolver) (path : Option String) (v : Visit) : Prop where
  /-- No rule gives it a type. -/
  typeRule?_eq : Lookup.typeRule? r.mappings path .schema v.features = none
  /-- It has no constituents. -/
  allOf_eq : v.node.allOf = []
  /-- It has alternatives. -/
  alternatives_ne : ¬ (v.node.oneOf = [] ∧ v.node.anyOf = [])

/-- A composed schema has a constituent, references being followed. -/
def Composes (r : Resolver) (path : Option String) (v w : Visit) : Prop :=
  r.Composed path v ∧ r.Leads path v w

variable {r : Resolver} {path : Option String} {v w : Visit}

theorem demand_of_typeRule?_eq_none
    (h : Lookup.typeRule? r.mappings path .schema v.features = none) :
    r.demand path v = r.demandOfShape v.node v.name := by
  rw [demand, h]

/-- What a composed schema demands. -/
theorem Composed.demand_eq (h : r.Composed path v) :
    r.demand path v = .composite (listedChildren v.name "AllOf" 0 v.node.allOf)
      (.allOf (r.typeName v.name) r.options.modelPackage (List.range v.node.allOf.length)
        v.node.deprecated) := by
  have hall : (!v.node.allOf.isEmpty) = true := by
    rw [Bool.not_eq_true', List.isEmpty_eq_false_iff]
    exact h.allOf_ne
  rw [demand_of_typeRule?_eq_none h.typeRule?_eq, demandOfShape, if_pos hall]

/-- What a schema with alternatives demands. -/
theorem HasAlternatives.demand_eq (h : r.HasAlternatives path v) :
    ∃ label alternatives, r.demand path v = r.demandOfOneOf v.node v.name label alternatives := by
  have hall : ¬ (!v.node.allOf.isEmpty) = true := by
    rw [h.allOf_eq]
    exact Bool.false_ne_true
  rw [demand_of_typeRule?_eq_none h.typeRule?_eq, demandOfShape, if_neg hall]
  split
  · exact ⟨_, _, rfl⟩
  · rename_i hone
    have hany : (!v.node.anyOf.isEmpty) = true := by
      rw [Bool.not_eq_true', List.isEmpty_eq_false_iff]
      intro hany
      refine h.alternatives_ne ⟨?_, hany⟩
      rw [Bool.not_eq_true, Bool.not_eq_false', List.isEmpty_iff] at hone
      exact hone
    rw [if_pos hany]
    exact ⟨_, _, rfl⟩

/-- **Only composed schemas demand types with constituents.** -/
theorem simple_demand (h : ¬ r.Composed path v) : (r.demand path v).Simple := by
  cases hrule : Lookup.typeRule? r.mappings path .schema v.features with
  | some rule =>
      rw [demand, hrule]
      exact simple_demandOfRule r v.node v.name rule
  | none =>
      rw [demand_of_typeRule?_eq_none hrule]
      exact demandOfShape_cases (fun hall => absurd ⟨hrule, hall⟩ h) (fun _ _ _ => rfl)
        (simple_demandOfType r v.node v.name)

/-- **A type that may be found early may be a constituent, unless it is of alternatives.** -/
theorem hasAlternatives_of_isComposite (h : (r.demand path v).isComposite = true)
    (hmakes : (r.demand path v).makesConstituent = false) : r.HasAlternatives path v := by
  have hnot : ∀ {demand : Demand}, demand.Joinable → demand.isComposite = true →
      ¬ demand.makesConstituent = false := by
    intro demand hjoinable hcomposite hmakes
    rw [hjoinable hcomposite] at hmakes
    cases hmakes
  cases hrule : Lookup.typeRule? r.mappings path .schema v.features with
  | some rule =>
      rw [demand, hrule] at h hmakes
      exact absurd hmakes (hnot (joinable_demandOfRule r v.node v.name rule) h)
  | none =>
      rw [demand_of_typeRule?_eq_none hrule] at h hmakes
      unfold demandOfShape at h hmakes
      by_cases hall : (!v.node.allOf.isEmpty) = true
      · rw [if_pos hall] at hmakes
        cases hmakes
      · have hempty : v.node.allOf = [] := by
          rw [Bool.not_eq_true, Bool.not_eq_false', List.isEmpty_iff] at hall
          exact hall
        refine ⟨hrule, hempty, fun halternatives => ?_⟩
        rw [if_neg hall, halternatives.1, halternatives.2] at h hmakes
        exact hnot (joinable_demandOfType r v.node v.name) h hmakes

theorem HasAlternatives.not_composed (h : r.HasAlternatives path v) : ¬ r.Composed path v :=
  fun hc => hc.allOf_ne h.allOf_eq

/-- Proper schemas of one key look the same to rules. -/
theorem features_eq_of_key_eq (hv : v.Proper r.description) (hw : w.Proper r.description)
    (hkey : v.node.key = w.node.key) : v.features = w.features := by
  obtain ⟨hnode, hnamed, heq⟩ := hv.eq_of_key_eq hw hkey
  cases hvn : v.isNamed with
  | true => rw [heq hvn]
  | false =>
      rw [Visit.features, Visit.features, ← hnamed, hvn, hnode]
      rfl

/-- Of proper schemas of one key both are composed or none. -/
theorem Composed.of_key_eq (h : r.Composed path v) (hv : v.Proper r.description)
    (hw : w.Proper r.description) (hkey : v.node.key = w.node.key) : r.Composed path w where
  typeRule?_eq := features_eq_of_key_eq hv hw hkey ▸ h.typeRule?_eq
  allOf_ne := (hv.eq_of_key_eq hw hkey).1 ▸ h.allOf_ne

/-- Of proper schemas of one key both have alternatives or none. -/
theorem HasAlternatives.of_key_eq (h : r.HasAlternatives path v) (hv : v.Proper r.description)
    (hw : w.Proper r.description) (hkey : v.node.key = w.node.key) :
    r.HasAlternatives path w where
  typeRule?_eq := features_eq_of_key_eq hv hw hkey ▸ h.typeRule?_eq
  allOf_eq := (hv.eq_of_key_eq hw hkey).1 ▸ h.allOf_eq
  alternatives_ne := (hv.eq_of_key_eq hw hkey).1 ▸ h.alternatives_ne

/-- Constituents of proper schemas of one key have the same keys. -/
theorem Composes.of_key_eq {v' : Visit} (h : r.Composes path v w) (hv : v.Proper r.description)
    (hv' : v'.Proper r.description) (hkey : v.node.key = v'.node.key) :
    ∃ w', r.Composes path v' w' ∧ w'.node.key = w.node.key := by
  obtain ⟨w', hlead, hw⟩ := h.2.of_key_eq hv hv' hkey
  exact ⟨w', ⟨h.1.of_key_eq hv hv' hkey, hlead⟩, hw⟩

/-! ## Slots that meet a schema -/

variable {s : TypeStore} {id : Nat} {t : ModelType}

/-- A slot of a schema that is not composed has no constituents. -/
theorem Meets.constituents_eq_nil (h : r.Meets path s v id) (hv : ¬ r.Composed path v)
    (hget : s.get? id = some t) : t.constituents = [] := by
  have hsimple := simple_demand hv
  cases h with
  | @block inner last base hd hid hinner =>
      have hlast := hinner inner.length last (by
        rw [List.getElem?_append_right (Nat.le_refl _), Nat.sub_self]
        rfl)
      rw [← hid, hget] at hlast
      rw [hd] at hsimple
      rw [Option.some.inj hlast, ModelType.constituents_rename,
        hsimple last (List.mem_append_right _ (List.mem_singleton_self last)), List.map_nil]
  | @wrapper item shape itemId hd hfinds hlt hget' =>
      rw [hget] at hget'
      rw [hd] at hsimple
      have hshape : shape.constituents = [] := hsimple
      rw [Option.some.inj hget', ModelType.constituents_rename, hshape, List.map_nil]
  | @composite children shape found hd hall hget' =>
      rw [hget] at hget'
      rw [hd] at hsimple
      rw [Option.some.inj hget']
      exact Demand.constituents_filled_eq_nil hsimple found

/-- The slot of a composed schema. -/
theorem Meets.of_composed (h : r.Meets path s v id) (hv : r.Composed path v) :
    ∃ found : List (Nat × Bool),
      List.Forall₂ (fun c entry => r.Finds path s c entry.1 ∧ r.Marked path s v c entry)
        (r.demand path v).children found ∧
      s.get? id = some (.allOf (r.typeName v.name) r.options.modelPackage
        ((found.filter Prod.snd).map Prod.fst) v.node.deprecated) := by
  obtain ⟨found, hfound, hget⟩ := h.of_composite hv.demand_eq
  have hlength : found.length = v.node.allOf.length := by
    rw [← hfound.length_eq, length_listedChildren]
  rw [← hlength, Demand.filled_allOf] at hget
  refine ⟨found, ?_, hget⟩
  rw [hv.demand_eq]
  exact hfound

/-- **A constituent of a slot is the slot of a constituent.** Its type may be one, unless the
constituent has alternatives and leads back. -/
theorem Meets.exists_composes (h : r.Meets path s v id) (hget : s.get? id = some t) {j : Nat}
    (hj : j ∈ t.constituents) :
    ∃ w, r.Composes path v w ∧ s.lookup (r.keyOf path w) = some j ∧
      ((∃ u, s.get? j = some u ∧ isConstituent (some u) = true) ∨
        ((r.demand path w).isComposite = true ∧
          Relation.ReflTransGen (r.Link path) w.node.key v.node.key)) := by
  have hv : r.Composed path v := by
    by_contra hv
    rw [h.constituents_eq_nil hv hget] at hj
    cases hj
  obtain ⟨found, hfound, hget'⟩ := h.of_composed hv
  rw [hget] at hget'
  rw [Option.some.inj hget'] at hj
  obtain ⟨entry, hentry, rfl⟩ := List.mem_map.mp hj
  obtain ⟨hmem, hmark⟩ := List.mem_filter.mp hentry
  obtain ⟨c, hc, ⟨w, hin, hl⟩, hmarked⟩ := exists_of_mem_forall₂ hfound hmem
  refine ⟨w, ⟨hv, c, hc, hin⟩, hl, ?_⟩
  rcases hmarked with ⟨u, hu, heq⟩ | ⟨_, w', hin', hcomposite, hback⟩
  · exact Or.inl ⟨u, hu, heq ▸ hmark⟩
  · rw [hin] at hin'
    cases hin'
    exact Or.inr ⟨hcomposite, hback⟩

end Resolver

/-! ## Which schema a slot is for -/

/-- A store in which no slot is remembered twice, and what has constituents is remembered. -/
structure TypeStore.Indexed (s : TypeStore) : Prop where
  /-- A slot is remembered for one schema. -/
  unique : ∀ (key key' : MemoKey) (id : Nat), s.lookup key = some id → s.lookup key' = some id →
    key = key'
  /-- A slot with constituents is remembered. -/
  remembered : ∀ (i : Nat) (t : ModelType), s.get? i = some t → ¬ t.constituents = [] →
    ∃ key, s.lookup key = some i

namespace TypeStore.Indexed

variable {s s' : TypeStore}

theorem empty : TypeStore.Indexed {} where
  unique key key' id h _ := by cases h
  remembered i t h _ := by
    have hlt := lt_size_of_get? _ h
    cases hlt

/-- A store in which the same is remembered, and new types with constituents are. -/
theorem same (h : s.Indexed) (hlookup : ∀ key, s'.lookup key = s.lookup key)
    (hget : ∀ (i : Nat) (t : ModelType), s'.get? i = some t → ¬ t.constituents = [] →
      s.get? i = some t ∨ ∃ key, s.lookup key = some i) : s'.Indexed where
  unique key key' id hk hk' := by
    rw [hlookup] at hk hk'
    exact h.unique key key' id hk hk'
  remembered i t hi ht := by
    simp only [hlookup]
    rcases hget i t hi ht with hold | hkey
    · exact h.remembered i t hold ht
    · exact hkey

/-- A store in which one more schema is remembered, on a new slot. -/
theorem remember (h : s.Indexed) (hs : s.Closed) {key : MemoKey} (hnone : s.lookup key = none)
    {id : Nat} (hid : s.size ≤ id)
    (hlookup : ∀ other, s'.lookup other = if other = key then some id else s.lookup other)
    (hget : ∀ (i : Nat) (t : ModelType), s'.get? i = some t → ¬ t.constituents = [] →
      s.get? i = some t) : s'.Indexed where
  unique other other' i hk hk' := by
    -- What was remembered before are earlier slots.
    have hold : ∀ {other : MemoKey}, s.lookup other = some i → ¬ i = id := by
      intro other hk heq
      have := hs.lookup_lt other i hk
      omega
    rw [hlookup] at hk hk'
    split at hk
    · rename_i heq
      split at hk'
      · rename_i heq'
        rw [heq, heq']
      · exact absurd (Option.some.inj hk).symm (hold hk')
    · split at hk'
      · exact absurd (Option.some.inj hk').symm (hold hk)
      · exact h.unique other other' i hk hk'
  remembered i t hi ht := by
    obtain ⟨other, hk⟩ := h.remembered i t (hget i t hi ht) ht
    have hne : ¬ other = key := by
      rintro rfl
      rw [hnone] at hk
      cases hk
    exact ⟨other, by rw [hlookup, if_neg hne]; exact hk⟩

/-- Types of a simple block have no constituents. -/
theorem get?_addBlock {inner : List ModelType} {last : ModelType}
    (hsimple : (Demand.block inner last).Simple) {i : Nat} {t : ModelType}
    (hi : (s.addBlock inner last).2.get? i = some t) (ht : ¬ t.constituents = []) :
    s.get? i = some t := by
  rw [TypeStore.get?_addBlock] at hi
  split at hi
  · exact hi
  · obtain ⟨u, hu, rfl⟩ := Option.map_eq_some_iff.mp hi
    rw [ModelType.constituents_rename, hsimple u (List.mem_of_getElem? hu)] at ht
    exact absurd rfl ht

/-- A type around another one has no constituents. -/
theorem get?_add {shape : ModelType} (hsimple : shape.constituents = []) {f : Nat → Nat}
    {i : Nat} {t : ModelType} (hi : (s.add (shape.rename f)).2.get? i = some t)
    (ht : ¬ t.constituents = []) : s.get? i = some t := by
  rw [TypeStore.get?_add] at hi
  split at hi
  · rw [← Option.some.inj hi, ModelType.constituents_rename, hsimple] at ht
    exact absurd rfl ht
  · exact hi

end TypeStore.Indexed

namespace Resolver

variable {r : Resolver} {path : Option String}

theorem simple_of_demand_block {v : Visit} {inner : List ModelType} {last : ModelType}
    (hd : r.demand path v = .block inner last) : (Demand.block inner last).Simple := by
  rw [← hd]
  refine simple_demand fun hv => ?_
  cases hd.symm.trans hv.demand_eq

theorem simple_of_demand_wrapper {v : Visit} {item : Child} {shape : ModelType}
    (hd : r.demand path v = .wrapper item shape) : (Demand.wrapper item shape).Simple := by
  rw [← hd]
  refine simple_demand fun hv => ?_
  cases hd.symm.trans hv.demand_eq

end Resolver

/-- **Calls remember each slot for one schema, however they end.** -/
theorem Walked.indexed {r : Resolver} {path : Option String} {depth : Nat} {c : Call}
    {s s' : WalkState} {out : Except Error c.Out} (h : Walked r path depth c s out s')
    (hclosed : s.types.Closed) (hs : s.types.Indexed) : s'.types.Indexed := by
  have hstart : ∀ {v w : Visit} {s : WalkState}, r.Enters path v s w → s.types.Closed →
      s.types.Indexed → (s.start (r.keyOf path w)).types.Indexed := by
    intro v w s hin hclosed hs
    refine hs.remember hclosed hin.lookup_eq (Nat.le_refl _) (fun other => ?_) fun i t hi _ => ?_
    · rw [WalkState.types_start, TypeStore.lookup_remember, TypeStore.lookup_reserve]
    · rw [WalkState.types_start, TypeStore.get?_remember, TypeStore.get?_reserve] at hi
      exact hi
  induction h with
  | deep => exact hs
  | strayed hv => exact hs
  | found hv hl => exact hs
  | cyclic hv hl hp => exact hs
  | fault hin hd => exact hs
  | @block depth v w s inner last hin hd =>
      refine hs.remember hclosed hin.lookup_eq (Nat.le_add_right _ inner.length) (fun other => ?_)
        fun i t hi ht => ?_
      · rw [WalkState.types_withTypes, Resolver.lookup_settle, TypeStore.lookup_addBlock]
      · rw [WalkState.types_withTypes, Resolver.get?_settle] at hi
        exact TypeStore.Indexed.get?_addBlock (Resolver.simple_of_demand_block hd) hi ht
  | wrapperFails hin hd _ ih => exact ih hclosed hs
  | @wrapper depth v w s s₁ item shape id hin hd h₁ ih =>
      have hnone : s₁.types.lookup (r.keyOf path w) = none :=
        h₁.lookup_of_mem_pending List.mem_cons_self hin.lookup_eq
      refine (ih hclosed hs).remember (h₁.closed hclosed).1 hnone (Nat.le_refl _) (fun other => ?_)
        fun i t hi ht => ?_
      · rw [Resolver.types_settled, Resolver.lookup_settle, WalkState.types_withTypes,
          TypeStore.lookup_add]
      · rw [Resolver.types_settled, Resolver.get?_settle, WalkState.types_withTypes] at hi
        exact TypeStore.Indexed.get?_add (Resolver.simple_of_demand_wrapper hd) hi ht
  | compositeFails hin hd _ ih =>
      exact ih (WalkState.closed_start hclosed _) (hstart hin hclosed hs)
  | @composite depth v w s s₁ children shape found hin hd h₁ ih =>
      have hkey : s₁.types.lookup (r.keyOf path w) = some s.types.size :=
        h₁.grows.lookup_eq _ _ (s.lookup_start _)
      refine (ih (WalkState.closed_start hclosed _) (hstart hin hclosed hs)).same (fun other => ?_)
        fun i t hi ht => ?_
      · rw [Resolver.types_settled, Resolver.lookup_settle, WalkState.types_withTypes,
          TypeStore.lookup_fill]
        split
        · rename_i heq
          rw [heq, hkey]
        · rfl
      · rw [Resolver.types_settled, Resolver.get?_settle, WalkState.types_withTypes,
          TypeStore.get?_fill] at hi
        split at hi
        · rename_i hslot
          exact Or.inr ⟨_, hslot.1 ▸ hkey⟩
        · exact Or.inl hi
  | nil => exact hs
  | headFails _ ih => exact ih hclosed hs
  | tailFails h₁ _ ih₁ ih₂ => exact ih₂ (h₁.closed hclosed).1 (ih₁ hclosed hs)
  | cons h₁ _ ih₁ ih₂ => exact ih₂ (h₁.closed hclosed).1 (ih₁ hclosed hs)

/-- **Requests remember each slot for one schema, however they end.** -/
theorem Answered.indexed {r : Resolver} {q : Request} {s s' : WalkState}
    {out : Except Error Resolved} (h : Answered r q s out s') (hclosed : s.types.Closed)
    (hs : s.types.Indexed) : s'.types.Indexed := by
  cases h with
  | component h => exact h.indexed hclosed hs
  | componentFails h => exact h.indexed hclosed hs
  | strayed hv => exact hs
  | shared hv hd h => exact h.indexed hclosed hs
  | sharedFails hv hd h => exact h.indexed hclosed hs
  | fault hv hd => exact hs
  | block hv hd =>
      refine hs.same (fun key => ?_) fun i t hi ht => Or.inl ?_
      · rw [Resolver.types_owned, TypeStore.lookup_annotateAll, WalkState.types_withTypes,
          TypeStore.lookup_addBlock]
      · rw [Resolver.types_owned, TypeStore.get?_annotateAll, WalkState.types_withTypes] at hi
        exact TypeStore.Indexed.get?_addBlock (Resolver.simple_useDemand r _ hd) hi ht
  | wrapper hv hd h =>
      refine (h.indexed hclosed hs).same (fun key => ?_) fun i t hi ht => Or.inl ?_
      · rw [Resolver.types_owned, TypeStore.lookup_annotateAll, WalkState.types_withTypes,
          TypeStore.lookup_add]
      · rw [Resolver.types_owned, TypeStore.get?_annotateAll, WalkState.types_withTypes] at hi
        exact TypeStore.Indexed.get?_add (Resolver.simple_useDemand r _ hd) hi ht
  | wrapperFails hv hd h => exact h.indexed hclosed hs

/-- **At the end of a run that succeeds each slot is remembered for one schema.** -/
theorem Resolver.indexed_of_run {r : Resolver} {api : ResolvedApi} (h : r.run = .ok api) :
    api.types.Indexed := by
  obtain ⟨s, ⟨_, hs⟩, htypes⟩ := run_invariant (I := fun s => s.types.Closed ∧ s.types.Indexed) h
    ⟨TypeStore.Closed.empty, TypeStore.Indexed.empty⟩
    fun _ _ _ _ _ hans hs => ⟨(hans.closed hs.1).1, hans.indexed hs.1 hs.2⟩
  rw [htypes]
  exact hs

/-! ## The slots of a result -/

namespace Resolver

variable {r : Resolver} {s : WalkState}

/-- **A slot with a constituent is that of a composed schema, and the constituent is that of a
constituent on the same scope.** -/
theorem Settled.exists_composes (hs : r.Settled (Visit.Proper r.description) s)
    (hindexed : s.types.Indexed) {i j : Nat} (h : s.types.HasConstituent i j) :
    ∃ scope v w, v.Proper r.description ∧ r.Composes scope v w ∧
      s.types.lookup ⟨scope, v.node.key⟩ = some i ∧ s.types.lookup ⟨scope, w.node.key⟩ = some j ∧
      ((∃ u, s.types.get? j = some u ∧ isConstituent (some u) = true) ∨
        ((r.demand scope w).isComposite = true ∧
          Relation.ReflTransGen (r.Link scope) w.node.key v.node.key)) := by
  obtain ⟨t, hget, hj⟩ := h
  obtain ⟨key, hk⟩ := hindexed.remembered i t hget fun hnil => by
    rw [hnil] at hj
    cases hj
  obtain ⟨v, hv⟩ := hs.known key i hk
  have hscope : r.scopeOf key.scope = key.scope := congrArg MemoKey.scope hv.key_eq
  obtain ⟨w, hcomposes, hl, hkind⟩ := hv.meets.exists_composes hget hj
  rw [keyOf_eq, hscope] at hl
  refine ⟨key.scope, v, w, hv.holds, hcomposes, ?_, hl, hkind⟩
  have hkey : (⟨key.scope, v.node.key⟩ : MemoKey) = key := by
    rw [← hscope, ← keyOf_eq]
    exact hv.key_eq
  rw [hkey]
  exact hk

end Resolver

end ApiTypes
