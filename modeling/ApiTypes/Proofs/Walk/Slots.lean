import ApiTypes.Proofs.Document.Characters
import ApiTypes.Proofs.OpenApi.Loading
import ApiTypes.Proofs.Walk.Settled

/-!
# What a slot holds

`Resolver.Slot` says what the slot of a schema holds: the type of the rule that wins for the schema
on its scope, or else that of its constituents, its alternatives, or its type, in this order. A
schema inside the type stands there as the slot that is remembered for it on the same scope, once
references are followed (`Resolver.Handle`). At the end of a run that succeeds, every slot that is
remembered holds this (`slot_of_resolveText`).
-/

set_option autoImplicit false

namespace ApiTypes

/-! ## Type arguments -/

namespace Target

mutual

/-- A slot holds a type argument, made around slots that hold its own type arguments. -/
def Stands (types : TypeStore) : Target → Nat → Prop
  | ⟨name, args⟩, id => ∃ generics : List Nat, StandAll types args generics ∧
      types.get? id = some (Resolver.mappedType ⟨name, args⟩ generics false {} false)

/-- Slots hold type arguments, one each. -/
def StandAll (types : TypeStore) : List Target → List Nat → Prop
  | [], [] => True
  | t :: rest, id :: ids => Stands types t id ∧ StandAll types rest ids
  | _, _ => False

end

mutual

/-- The types that a type argument needs make it stand. -/
theorem stands_of_typesFrom (types : TypeStore) (base start : Nat) : ∀ t : Target,
    (∀ (i : Nat) (m : ModelType), (typesFrom start t)[i]? = some m →
      types.get? (base + start + i : Nat) = some (m.rename (base + ·))) →
    t.Stands types (base + start + countAll t.args)
  | ⟨name, args⟩, h => by
      rw [typesFrom] at h
      refine ⟨places (base + start) args, ?_, ?_⟩
      · refine standAll_of_allTypesFrom types base start args fun i m hm => ?_
        refine h i m ?_
        rw [List.getElem?_append_left (List.getElem?_eq_some_iff.mp hm).1]
        exact hm
      · have hlast := h (countAll args)
          (Resolver.mappedType ⟨name, args⟩ (places start args) false {} false) ?_
        · rw [hlast, places_add]
          rfl
        · rw [List.getElem?_append_right (by rw [length_allTypesFrom]), length_allTypesFrom,
            Nat.sub_self]
          rfl

theorem standAll_of_allTypesFrom (types : TypeStore) (base start : Nat) : ∀ ts : List Target,
    (∀ (i : Nat) (m : ModelType), (allTypesFrom start ts)[i]? = some m →
      types.get? (base + start + i : Nat) = some (m.rename (base + ·))) →
    StandAll types ts (places (base + start) ts)
  | [], _ => trivial
  | ⟨name, args⟩ :: rest, h => by
      rw [allTypesFrom] at h
      refine ⟨stands_of_typesFrom types base start ⟨name, args⟩ fun i m hm => ?_, ?_⟩
      · refine h i m ?_
        rw [List.getElem?_append_left (List.getElem?_eq_some_iff.mp hm).1]
        exact hm
      · have hrest := standAll_of_allTypesFrom types base (start + count ⟨name, args⟩) rest
          fun i m hm => ?_
        · rw [Nat.add_assoc]
          exact hrest
        · have hi := h (count ⟨name, args⟩ + i) m ?_
          · rw [← Nat.add_assoc base start, Nat.add_assoc (base + start)]
            exact hi
          · rw [List.getElem?_append_right (by rw [length_typesFrom]; exact Nat.le_add_right _ _),
              length_typesFrom, Nat.add_sub_cancel_left]
            exact hm

end

end Target

namespace Resolver

/-! ## The slot of a schema -/

section Spec

variable (r : Resolver) (scope : Option String) (types : TypeStore)

/-- The slot that is remembered on a scope for a schema, once references are followed. -/
def Handle (n : SchemaNode) (id : Nat) : Prop :=
  match r.description.dereference n with
  | .ok (some (target, _)) => types.lookup ⟨scope, target.key⟩ = some id
  | .ok none => types.lookup ⟨scope, n.key⟩ = some id
  | .error _ => False

/-- Whether a constituent is kept in a composed type. One that is left out is none. One that is kept
is one, or leads back to the composed schema. -/
def KeepsConstituent (v : Visit) (n : SchemaNode) (entry : Nat × Bool) : Prop :=
  match entry.2 with
  | false => ∃ t, types.get? entry.1 = some t ∧ isConstituent (some t) = false
  | true => isConstituent (types.get? entry.1) = true ∨
      ∃ w, r.enter ⟨n, "", false⟩ = .ok w ∧
        Relation.ReflTransGen (r.Link scope) w.node.key v.node.key

/-- The slot of a schema to which a rule gives a type. -/
def RuleSlot (n : SchemaNode) (rule : Rule) (id : Nat) : Prop :=
  ∃ target generics, r.ruleTarget rule = .ok target ∧
    types.get? id
      = some (mappedType target generics rule.isArray n.constraints n.deprecated) ∧
    if rule.source.type = "array" ∧ n.type = some "array" ∧ target.args.isEmpty then
      ∃ items item, n.items = some items ∧ r.Handle scope types items item ∧ generics = [item]
    else Target.StandAll types target.args generics

/-- The slot of a schema that is composed of constituents. -/
def AllOfSlot (v : Visit) (id : Nat) : Prop :=
  ∃ found : List (Nat × Bool),
    List.Forall₂ (fun n entry => r.Handle scope types n entry.1 ∧
      r.KeepsConstituent scope types v n entry) v.node.allOf found ∧
    types.get? id = some (.allOf (r.typeName v.name) r.options.modelPackage
      ((found.filter Prod.snd).map Prod.fst) v.node.deprecated)

/-- The slot of a schema that has alternatives. -/
def OneOfSlot (v : Visit) (alternatives : List SchemaNode) (id : Nat) : Prop :=
  ∃ ids : List Nat, List.Forall₂ (r.Handle scope types) alternatives ids ∧
    types.get? id = some (.oneOf (r.typeName v.name) r.options.modelPackage ids
      r.options.oneOfInterface v.node.deprecated)

/-- The slot of a schema that has properties. -/
def ObjectSlot (v : Visit) (id : Nat) : Prop :=
  ∃ ids : List Nat, List.Forall₂ (r.Handle scope types) (v.node.properties.map Prod.snd) ids ∧
    types.get? id = some (.object (r.typeName v.name) r.options.modelPackage
      (.ofList ((v.node.properties.map Prod.fst).zip ids)) v.node.required v.node.constraints
      v.node.deprecated)

/-- The slot of an object without properties. -/
def FreeFormSlot (n : SchemaNode) (id : Nat) : Prop :=
  match n.additional with
  | .none => types.get? id = some (.primitive .object n.constraints n.deprecated)
  | .any => ∃ value : Nat, types.get? value = some (.primitive .object {} false) ∧
      types.get? id = some (.map value n.constraints n.deprecated)
  | .described schema => ∃ value : Nat, r.Handle scope types schema value ∧
      types.get? id = some (.map value n.constraints n.deprecated)

/-- The slot of a schema whose type is built in. -/
def PrimitiveSlot (n : SchemaNode) (type : String) (id : Nat) : Prop :=
  ∃ kind, Primitive.ofSchema? type n.format = some kind ∧
    types.get? id = some (.primitive kind n.constraints n.deprecated)

/-- The slot of a schema that has neither constituents nor alternatives. -/
def TypeSlot (v : Visit) (id : Nat) : Prop :=
  match v.node.type with
  | some "array" => ∃ items item, v.node.items = some items ∧ r.Handle scope types items item ∧
      types.get? id = some (.array item v.node.constraints v.node.deprecated)
  | some "object" =>
      if v.node.properties.isEmpty then r.FreeFormSlot scope types v.node id
      else r.ObjectSlot scope types v id
  | some "string" =>
      if v.node.enum.isEmpty then PrimitiveSlot types v.node "string" id
      else types.get? id = some (r.enumType v.node v.name)
  | some type => PrimitiveSlot types v.node type id
  | none => v.node.properties.isEmpty = false ∧ r.ObjectSlot scope types v id

/-- The slot of a schema on a scope. -/
def Slot (v : Visit) (id : Nat) : Prop :=
  match Lookup.typeRule? r.mappings scope .schema v.features with
  | some rule => r.RuleSlot scope types v.node rule id
  | none =>
      if !v.node.allOf.isEmpty then r.AllOfSlot scope types v id
      else if !v.node.oneOf.isEmpty then r.OneOfSlot scope types v v.node.oneOf id
      else if !v.node.anyOf.isEmpty then r.OneOfSlot scope types v v.node.anyOf id
      else r.TypeSlot scope types v id

end Spec

/-! ## Slots that meet a schema -/

variable {r : Resolver} {scope : Option String} {types : TypeStore} {v : Visit} {id : Nat}

theorem Finds.handle (hscope : r.scopeOf scope = scope) {c : Child}
    (h : r.Finds scope types c id) : r.Handle scope types c.node id := by
  obtain ⟨w, hw, hl⟩ := h
  rw [keyOf_eq, hscope] at hl
  unfold enter at hw
  unfold Handle
  have hnode : c.visit.node = c.node := rfl
  rw [hnode] at hw
  cases hd : r.description.dereference c.node with
  | error e =>
      rw [hd] at hw
      cases hw
  | ok followed =>
      rw [hd] at hw
      cases followed with
      | none =>
          cases hw
          exact hl
      | some target =>
          cases hw
          exact hl

theorem handles_of_finds (hscope : r.scopeOf scope = scope) {children : List Child}
    {found : List (Nat × Bool)} {Q : Child → Nat × Bool → Prop}
    (h : List.Forall₂ (fun c entry => r.Finds scope types c entry.1 ∧ Q c entry) children found) :
    List.Forall₂ (r.Handle scope types) (children.map Child.node) (found.map Prod.fst) := by
  rw [List.forall₂_map_left_iff, List.forall₂_map_right_iff]
  exact h.imp fun c entry hc => hc.1.handle hscope

theorem Marked.keepsConstituent {c : Child} {entry : Nat × Bool}
    (h : r.Marked scope types v c entry) : r.KeepsConstituent scope types v c.node entry := by
  obtain ⟨i, mark⟩ := entry
  rcases h with ⟨t, ht, hmark⟩ | ⟨hmark, w, hw, _, hlink⟩
  · simp only at hmark ht
    cases mark with
    | false => exact ⟨t, ht, hmark.symm⟩
    | true =>
        refine Or.inl ?_
        rw [ht]
        exact hmark.symm
  · simp only at hmark
    subst hmark
    have hsame : c.visit.node = (⟨c.node, "", false⟩ : Visit).node := rfl
    obtain ⟨w', hw', hnode⟩ := enter_of_node_eq hsame hw
    refine Or.inr ⟨w', hw', ?_⟩
    rw [hnode]
    exact hlink

/-- What a rule demands. -/
theorem ruleSlot_of_meets (hscope : r.scopeOf scope = scope) {rule : Rule}
    (hd : r.demand scope v = r.demandOfRule v.node v.name rule) (h : r.Meets scope types v id) :
    r.RuleSlot scope types v.node rule id := by
  unfold demandOfRule at hd
  cases ht : r.ruleTarget rule with
  | error e =>
      rw [ht] at hd
      exact absurd hd h.not_fault
  | ok target =>
      simp only [ht] at hd
      by_cases harray : rule.source.type = "array" ∧ v.node.type = some "array" ∧
          target.args.isEmpty
      · rw [if_pos harray] at hd
        cases hi : v.node.items with
        | none =>
            rw [hi] at hd
            exact absurd hd h.not_fault
        | some items =>
            rw [hi] at hd
            obtain ⟨itemId, hfinds, _, hget⟩ := h.of_wrapper hd
            refine ⟨target, [itemId], ht, hget, ?_⟩
            rw [if_pos harray]
            exact ⟨items, itemId, hi, hfinds.handle hscope, rfl⟩
      · rw [if_neg harray] at hd
        obtain ⟨base, hid, hinner⟩ := h.of_block hd
        refine ⟨target, Target.places base target.args, ht, ?_, ?_⟩
        · have hlast := hinner (Target.allTypesFrom 0 target.args).length _
            (by rw [List.getElem?_append_right (Nat.le_refl _), Nat.sub_self]; rfl)
          rw [← hid] at hlast
          rw [hlast, ← Nat.add_zero base, Target.places_add]
          rfl
        · rw [if_neg harray, ← Nat.add_zero base]
          refine Target.standAll_of_allTypesFrom types base 0 target.args fun i m hm => ?_
          refine hinner i m ?_
          rw [List.getElem?_append_left (List.getElem?_eq_some_iff.mp hm).1]
          exact hm

theorem allOfSlot_of_meets (hscope : r.scopeOf scope = scope)
    (hd : r.demand scope v = .composite (listedChildren v.name "AllOf" 0 v.node.allOf)
      (.allOf (r.typeName v.name) r.options.modelPackage (List.range v.node.allOf.length)
        v.node.deprecated))
    (h : r.Meets scope types v id) : r.AllOfSlot scope types v id := by
  obtain ⟨found, hfound, hget⟩ := h.of_composite hd
  have hlength : found.length = v.node.allOf.length := by
    rw [← hfound.length_eq, length_listedChildren]
  refine ⟨found, ?_, ?_⟩
  · have hkept : List.Forall₂ (fun n entry => r.Handle scope types n entry.1 ∧
        r.KeepsConstituent scope types v n entry)
        ((listedChildren v.name "AllOf" 0 v.node.allOf).map Child.node) found := by
      rw [List.forall₂_map_left_iff]
      exact hfound.imp fun c entry hc => ⟨hc.1.handle hscope, hc.2.keepsConstituent⟩
    rw [map_node_listedChildren] at hkept
    exact hkept
  · rw [hget, ← hlength, Demand.filled_allOf]

theorem oneOfSlot_of_meets (hscope : r.scopeOf scope = scope) {label : String}
    {alternatives : List SchemaNode}
    (hd : r.demand scope v = r.demandOfOneOf v.node v.name label alternatives)
    (h : r.Meets scope types v id) : r.OneOfSlot scope types v alternatives id := by
  obtain ⟨found, hfound, hget⟩ := h.of_composite hd
  have hlength : found.length = alternatives.length := by
    rw [← hfound.length_eq, length_listedChildren]
  refine ⟨found.map Prod.fst, ?_, ?_⟩
  · have hids := handles_of_finds hscope hfound
    rw [map_node_listedChildren] at hids
    exact hids
  · rw [hget, ← hlength, Demand.filled_oneOf]

theorem objectSlot_of_meets (hscope : r.scopeOf scope = scope)
    (hd : r.demand scope v = r.demandOfObject v.node v.name) (h : r.Meets scope types v id) :
    r.ObjectSlot scope types v id := by
  obtain ⟨found, hfound, hget⟩ := h.of_composite hd
  have hlength : found.length = v.node.properties.length := by
    rw [← hfound.length_eq, length_propertyChildren]
  refine ⟨found.map Prod.fst, ?_, ?_⟩
  · have hids := handles_of_finds hscope hfound
    rw [map_node_propertyChildren] at hids
    exact hids
  · rw [hget, ← hlength, Demand.filled_object]

theorem freeFormSlot_of_meets (hscope : r.scopeOf scope = scope)
    (hd : r.demand scope v = demandOfFreeForm v.node v.name) (h : r.Meets scope types v id) :
    r.FreeFormSlot scope types v.node id := by
  unfold demandOfFreeForm at hd
  unfold FreeFormSlot
  cases ha : v.node.additional with
  | none =>
      rw [ha] at hd
      exact h.of_single hd rfl
  | any =>
      rw [ha] at hd
      obtain ⟨base, hid, hinner⟩ := h.of_block hd
      refine ⟨base, hinner 0 _ rfl, ?_⟩
      rw [hid]
      exact hinner 1 _ rfl
  | described schema =>
      rw [ha] at hd
      obtain ⟨value, hfinds, _, hget⟩ := h.of_wrapper hd
      exact ⟨value, hfinds.handle hscope, hget⟩

theorem primitiveSlot_of_meets {type : String}
    (hd : r.demand scope v = demandOfPrimitive v.node type) (h : r.Meets scope types v id) :
    PrimitiveSlot types v.node type id := by
  unfold demandOfPrimitive at hd
  cases hk : Primitive.ofSchema? type v.node.format with
  | none =>
      rw [hk] at hd
      exact absurd hd h.not_fault
  | some kind =>
      rw [hk] at hd
      exact ⟨kind, hk, h.of_single hd rfl⟩

theorem typeSlot_of_meets (hscope : r.scopeOf scope = scope)
    (hd : r.demand scope v = r.demandOfType v.node v.name) (h : r.Meets scope types v id) :
    r.TypeSlot scope types v id := by
  unfold demandOfType at hd
  split at hd
  · rename_i htype
    rw [TypeSlot, htype]
    cases hi : v.node.items with
    | none =>
        rw [hi] at hd
        exact absurd hd h.not_fault
    | some items =>
        rw [hi] at hd
        obtain ⟨itemId, hfinds, _, hget⟩ := h.of_wrapper hd
        exact ⟨items, itemId, rfl, hfinds.handle hscope, hget⟩
  · rename_i htype
    rw [TypeSlot, htype]
    cases hp : v.node.properties.isEmpty with
    | true =>
        rw [hp] at hd
        exact freeFormSlot_of_meets hscope hd h
    | false =>
        rw [hp] at hd
        exact objectSlot_of_meets hscope hd h
  · rename_i htype
    rw [TypeSlot, htype]
    cases he : v.node.enum.isEmpty with
    | true =>
        rw [he] at hd
        exact primitiveSlot_of_meets hd h
    | false =>
        rw [he] at hd
        exact h.of_single hd rfl
  · rename_i type hne₁ hne₂ hne₃ htype
    rw [TypeSlot, htype]
    have hslot := primitiveSlot_of_meets hd h
    split
    · rename_i heq
      cases heq
      exact absurd rfl hne₁
    · rename_i heq
      cases heq
      exact absurd rfl hne₂
    · rename_i heq
      cases heq
      exact absurd rfl hne₃
    · rename_i heq
      cases heq
      exact hslot
    · rename_i heq
      cases heq
  · rename_i htype
    rw [TypeSlot, htype]
    cases hp : v.node.properties.isEmpty with
    | true =>
        rw [hp] at hd
        exact absurd hd h.not_fault
    | false =>
        rw [hp] at hd
        exact ⟨rfl, objectSlot_of_meets hscope hd h⟩

/-- **A slot that meets a schema holds what the schema demands.** -/
theorem slot_of_meets (hscope : r.scopeOf scope = scope) (h : r.Meets scope types v id) :
    r.Slot scope types v id := by
  unfold Slot
  cases hrule : Lookup.typeRule? r.mappings scope .schema v.features with
  | some rule =>
      refine ruleSlot_of_meets hscope ?_ h
      rw [demand, hrule]
  | none =>
      have hd : r.demand scope v = r.demandOfShape v.node v.name := by rw [demand, hrule]
      unfold demandOfShape at hd
      simp only
      split
      · rename_i hall
        rw [if_pos hall] at hd
        exact allOfSlot_of_meets hscope hd h
      · rename_i hall
        rw [if_neg hall] at hd
        split
        · rename_i hone
          rw [if_pos hone] at hd
          exact oneOfSlot_of_meets hscope hd h
        · rename_i hone
          rw [if_neg hone] at hd
          split
          · rename_i hany
            rw [if_pos hany] at hd
            exact oneOfSlot_of_meets hscope hd h
          · rename_i hany
            rw [if_neg hany] at hd
            exact typeSlot_of_meets hscope hd h

end Resolver

/-! ## Runs -/

/-- **After a run that succeeds, every slot that is remembered for a schema holds what the schema
demands on the scope under which it is remembered.** -/
theorem slot_of_resolveText {text : String} {options : Options} {api : ResolvedApi}
    (h : resolveText text options = .ok api) {key : MemoKey} {id : Nat}
    (hk : api.types.lookup key = some id) :
    ∃ d v, Description.load text = .ok d ∧ d.node? key.schema = some v.node ∧
      v.node.key = key.schema ∧ v.node.reference? = none ∧
      (v.isNamed = true → (v.name, v.node) ∈ d.components) ∧
      (v.isNamed = false → ∀ name, ¬ key.schema = SchemaKey.component name) ∧
      (Resolver.mk d options).Slot key.scope api.types v id := by
  unfold resolveText at h
  cases hload : Description.load text with
  | error fault =>
      rw [hload] at h
      cases h
  | ok d =>
      rw [hload] at h
      obtain ⟨s, hs, htypes⟩ := Resolver.settled_of_run (Description.tidy_of_load hload) h
      rw [htypes] at hk ⊢
      obtain ⟨v, hv⟩ := hs.known key id hk
      have hscope : (Resolver.mk d options).scopeOf key.scope = key.scope :=
        congrArg MemoKey.scope hv.key_eq
      have hkey : v.node.key = key.schema := congrArg MemoKey.schema hv.key_eq
      refine ⟨d, v, rfl, ?_, hkey, hv.reference?_eq, hv.holds.named, ?_,
        Resolver.slot_of_meets hscope hv.meets⟩
      · rw [← hkey]
        exact hv.holds.inPlace
      · rw [← hkey]
        exact hv.holds.unnamed

/-- A description of a list, whose schema contains itself. -/
def linkedList : String :=
  "openapi: 3.0.0\ninfo:\n  title: a\n  version: b\npaths: \x7b\x7d\ncomponents:\n  schemas:\n"
    ++ "    Node:\n      properties:\n        next:\n          $ref: '#/components/schemas/Node'\n"

theorem slot_of_linkedList :
    ∃ api d v, resolveText linkedList {} = .ok api ∧ Description.load linkedList = .ok d ∧
      api.types.lookup ⟨none, .component "Node"⟩ = some 0 ∧
      d.node? (.component "Node") = some v.node ∧
      (Resolver.mk d {}).Slot none api.types v 0 := by
  have hchars : linkedList = String.ofList _ := Text.append_eq_ofList rfl rfl
  have hfound : (resolveText linkedList {}).toOption.bind
      (fun api => api.types.lookup ⟨none, .component "Node"⟩) = some 0 := by
    rw [resolveText, Description.load, Yaml.read?_ofList hchars]
    decide +kernel
  cases h : resolveText linkedList {} with
  | error e =>
      rw [h] at hfound
      cases hfound
  | ok api =>
      rw [h] at hfound
      obtain ⟨d, v, hload, hnode, _, _, _, _, hslot⟩ := slot_of_resolveText h hfound
      exact ⟨api, d, v, rfl, hload, hfound, hnode, hslot⟩

end ApiTypes
