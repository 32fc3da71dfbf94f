import ApiTypes.Proofs.Document.Characters
import ApiTypes.Proofs.OpenApi.Loading
import ApiTypes.Proofs.Walk.Composed
import ApiTypes.Proofs.Walk.Orders
import ApiTypes.Proofs.Walk.Parts

/-!
# Where a report comes to an end

The walk over the constituents of a result follows composed schemas and their composed
constituents (`Resolver.Nests`), since composed schemas are always kept as constituents, found early
or not. So a slot is below itself exactly if it is that of a schema that is composed of itself
(`Resolver.Settled.cycle_iff`), and nothing prevents such a schema. The required properties of a
component come to an end exactly if no such schema is below it; all else that a report tells does
so in every result (`report_of_resolveText`).
-/

set_option autoImplicit false

namespace ApiTypes

namespace Resolver

/-- A composed schema has a composed constituent, as their keys tell. -/
def Nests (r : Resolver) (path : Option String) (key key' : SchemaKey) : Prop :=
  ∃ v w : Visit, v.Proper r.description ∧ r.Composes path v w ∧ r.Composed path w ∧
    v.node.key = key ∧ w.node.key = key'

/-- A schema is composed of itself, maybe through others. -/
def SelfComposed (r : Resolver) (path : Option String) (key : SchemaKey) : Prop :=
  Relation.TransGen (r.Nests path) key key

/-- No schema is composed of itself among those that a schema is composed of, itself included. -/
def WellComposed (r : Resolver) (path : Option String) (key : SchemaKey) : Prop :=
  ∀ key', Relation.ReflTransGen (r.Nests path) key key' → ¬ r.SelfComposed path key'

variable {r : Resolver} {path : Option String} {s : WalkState} {key key' : SchemaKey} {i j k : Nat}

/-! ## Constituents and composed schemas -/

/-- What is remembered for a proper schema meets a schema with the same key. -/
theorem Settled.exists_meets (hs : r.Settled (Visit.Proper r.description) s)
    (hl : s.types.lookup ⟨path, key⟩ = some i) :
    ∃ x : Visit, x.Proper r.description ∧ x.node.key = key ∧ r.Meets path s.types x i ∧
      r.scopeOf path = path := by
  obtain ⟨x, hx⟩ := hs.known _ _ hl
  exact ⟨x, hx.holds, congrArg MemoKey.schema hx.key_eq, hx.meets, congrArg MemoKey.scope hx.key_eq⟩

/-- **A composed schema keeps its composed constituents.** -/
theorem Settled.hasConstituent_of_nests (hs : r.Settled (Visit.Proper r.description) s)
    (hd : r.description.Tidy) (hn : r.Nests path key key')
    (hi : s.types.lookup ⟨path, key⟩ = some i) :
    ∃ j, s.types.lookup ⟨path, key'⟩ = some j ∧ s.types.HasConstituent i j := by
  obtain ⟨v, w, hv, hcomposes, hw, rfl, rfl⟩ := hn
  obtain ⟨x, hx, hxkey, hmeets, hscope⟩ := hs.exists_meets hi
  obtain ⟨w', ⟨hxcomposed, c, hc, hin⟩, hw'⟩ := hcomposes.of_key_eq hv hx hxkey.symm
  obtain ⟨found, hfound, hget⟩ := hmeets.of_composed hxcomposed
  obtain ⟨entry, hentry, ⟨y, hy, hl⟩, hmarked⟩ := exists_of_mem_forall₂_left hfound hc
  rw [hin] at hy
  cases hy
  rw [keyOf_eq, hscope, hw'] at hl
  refine ⟨entry.1, hl, _, hget, List.mem_map.mpr ⟨entry, List.mem_filter.mpr ⟨hentry, ?_⟩, rfl⟩⟩
  rcases hmarked with ⟨t, ht, hmark⟩ | ⟨hmark, _⟩
  · -- The constituent has its type already, and that is composed too.
    obtain ⟨z, hz, hzkey, hzmeets, _⟩ := hs.exists_meets hl
    have hzcomposed := hw.of_key_eq (hcomposes.2.proper hd hv) hz hzkey.symm
    obtain ⟨_, _, hzget⟩ := hzmeets.of_composed hzcomposed
    rw [hzget] at ht
    rw [hmark, ← ht]
    rfl
  · -- It had none yet when it was looked at; then it is kept whatever it becomes.
    exact hmark

/-- **A constituent with constituents is that of a composed schema.** -/
theorem Settled.nests_of_hasConstituent (hs : r.Settled (Visit.Proper r.description) s)
    (hd : r.description.Tidy) (hindexed : s.types.Indexed)
    (hi : s.types.lookup ⟨path, key⟩ = some i) (hij : s.types.HasConstituent i j)
    (hjk : s.types.HasConstituent j k) :
    ∃ key', s.types.lookup ⟨path, key'⟩ = some j ∧ r.Nests path key key' := by
  obtain ⟨scope, v, w, hv, hcomposes, hvi, hwj, _⟩ := hs.exists_composes hindexed hij
  obtain ⟨scope', x, y, hx, hxcomposes, hxj, _⟩ := hs.exists_composes hindexed hjk
  cases hindexed.unique _ _ _ hi hvi
  have hkeys := hindexed.unique _ _ _ hwj hxj
  cases congrArg MemoKey.scope hkeys
  have hw := hcomposes.2.proper hd hv
  exact ⟨w.node.key, hwj, v, w, hv, hcomposes,
    hxcomposes.1.of_key_eq hx hw (congrArg MemoKey.schema hkeys).symm, rfl, rfl⟩

/-! ## Ways through constituents -/

/-- What a schema is composed of is remembered below its slot. -/
theorem Settled.reaches_of_nests (hs : r.Settled (Visit.Proper r.description) s)
    (hd : r.description.Tidy) (hi : s.types.lookup ⟨path, key⟩ = some i)
    (h : Relation.ReflTransGen (r.Nests path) key key') :
    ∃ j, s.types.lookup ⟨path, key'⟩ = some j ∧
      Relation.ReflTransGen s.types.HasConstituent i j := by
  induction h with
  | refl => exact ⟨i, hi, .refl⟩
  | tail _ hn ih =>
      obtain ⟨j, hj, hij⟩ := ih
      obtain ⟨k, hk, hjk⟩ := hs.hasConstituent_of_nests hd hn hj
      exact ⟨k, hk, hij.tail hjk⟩

/-- What is below a slot and has constituents is what its schema is composed of. -/
theorem Settled.nests_of_reaches (hs : r.Settled (Visit.Proper r.description) s)
    (hd : r.description.Tidy) (hindexed : s.types.Indexed)
    (hi : s.types.lookup ⟨path, key⟩ = some i)
    (h : Relation.ReflTransGen s.types.HasConstituent i j) :
    ∀ k, s.types.HasConstituent j k →
      ∃ key', s.types.lookup ⟨path, key'⟩ = some j ∧
        Relation.ReflTransGen (r.Nests path) key key' := by
  induction h with
  | refl => exact fun _ _ => ⟨key, hi, .refl⟩
  | @tail a b _ hab ih =>
      intro k hbk
      obtain ⟨key₁, ha, hkey₁⟩ := ih b hab
      obtain ⟨key₂, hb, hn⟩ := hs.nests_of_hasConstituent hd hindexed ha hab hbk
      exact ⟨key₂, hb, hkey₁.tail hn⟩

/-- A remembered slot is below itself exactly if its schema is composed of itself. -/
theorem Settled.transGen_iff (hs : r.Settled (Visit.Proper r.description) s)
    (hd : r.description.Tidy) (hindexed : s.types.Indexed)
    (hi : s.types.lookup ⟨path, key⟩ = some i) :
    Relation.TransGen s.types.HasConstituent i i ↔ r.SelfComposed path key := by
  constructor
  · intro h
    obtain ⟨j, hij, hji⟩ := Relation.TransGen.tail'_iff.mp h
    obtain ⟨k, hik, _⟩ := Relation.TransGen.head'_iff.mp h
    obtain ⟨key₁, hj, hkey₁⟩ := hs.nests_of_reaches hd hindexed hi hij i hji
    obtain ⟨key₂, hi₂, hn⟩ := hs.nests_of_hasConstituent hd hindexed hj hji hik
    -- The way ends on the slot on which it began, which is remembered for one schema.
    cases hindexed.unique _ _ _ hi hi₂
    exact .tail' hkey₁ hn
  · intro h
    obtain ⟨key₁, hkey₁, hn⟩ := Relation.TransGen.tail'_iff.mp h
    obtain ⟨j, hj, hij⟩ := hs.reaches_of_nests hd hi hkey₁
    obtain ⟨k, hk, hjk⟩ := hs.hasConstituent_of_nests hd hn hj
    rw [hi] at hk
    cases hk
    exact .tail' hij hjk

/-- **A slot is below itself exactly if it is that of a schema that is composed of itself.** -/
theorem Settled.cycle_iff (hs : r.Settled (Visit.Proper r.description) s)
    (hd : r.description.Tidy) (hindexed : s.types.Indexed) (i : Nat) :
    Relation.TransGen s.types.HasConstituent i i ↔
      ∃ scope key, s.types.lookup ⟨scope, key⟩ = some i ∧ r.SelfComposed scope key := by
  constructor
  · intro h
    obtain ⟨j, hij, _⟩ := Relation.TransGen.head'_iff.mp h
    obtain ⟨scope, v, w, _, _, hi, _⟩ := hs.exists_composes hindexed hij
    exact ⟨scope, v.node.key, hi, (hs.transGen_iff hd hindexed hi).mp h⟩
  · rintro ⟨scope, key, hi, h⟩
    exact (hs.transGen_iff hd hindexed hi).mpr h

/-- **The walk ends on the slot of a schema exactly if the schema is well composed.** -/
theorem Settled.ends_iff (hs : r.Settled (Visit.Proper r.description) s)
    (hd : r.description.Tidy) (hindexed : s.types.Indexed)
    (hi : s.types.lookup ⟨path, key⟩ = some i) :
    s.types.Ends i ↔ r.WellComposed path key := by
  rw [TypeStore.ends_iff]
  constructor
  · intro h key' hreach hself
    obtain ⟨j, hj, hij⟩ := hs.reaches_of_nests hd hi hreach
    exact h j hij ((hs.transGen_iff hd hindexed hj).mpr hself)
  · intro h j hij hjj
    obtain ⟨k, hjk, _⟩ := Relation.TransGen.head'_iff.mp hjj
    obtain ⟨key', hj, hreach⟩ := hs.nests_of_reaches hd hindexed hi hij k hjk
    exact h key' hreach ((hs.transGen_iff hd hindexed hj).mp hjj)

/-! ## Components -/

/-- The slot of a component is remembered for the component. -/
theorem exists_component_of_mem_models (hd : r.description.Tidy) {api : ResolvedApi}
    (h : r.run = .ok api) {name : String} {id : Nat} (hmem : (name, id) ∈ api.models) :
    ∃ n w, (name, n) ∈ r.description.components ∧ r.enter ⟨n, name, true⟩ = .ok w ∧
      api.types.lookup (r.keyOf none w) = some id := by
  obtain ⟨es, s, last, hc, _, ho, htypes⟩ := parts_of_run h
  obtain ⟨hs, hmodels⟩ := complete_of_resolveComponents hd (fun _ => Iff.rfl) hc
  rw [hmodels] at hmem
  obtain ⟨⟨other, n⟩, hentry, heq⟩ := List.mem_map.mp hmem
  obtain ⟨rfl, hid⟩ := Prod.mk.inj heq
  obtain ⟨w, hin⟩ := hs.enters other n hentry
  obtain ⟨i, hl⟩ := hs.lookup_some w (Reached.component hentry hin)
  rw [slotOf_eq hin hl] at hid
  refine ⟨n, w, hentry, hin, ?_⟩
  rw [htypes, ← hid]
  exact (grows_of_resolveEndpoints ho).lookup_eq _ _ hl

end Resolver

/-! ## Results -/

/-- **Where the report of a result comes to an end.** What a report tells besides required
properties does not depend on the depths of its walks. The walk for required properties goes on
without end exactly at the components that are composed of a schema that is composed of itself,
whose slots are those that are below themselves. Where it ends, it does not depend on the depth
either and satisfies the recursion; so it does in all slots if no schema is composed of itself. -/
theorem report_of_resolveText {text : String} {options : Options} {api : ResolvedApi}
    (h : resolveText text options = .ok api) :
    ∃ d, Description.load text = .ok d ∧ api.types.Bounded ∧
      (∀ id, api.types.Ends id →
        api.types.required id = api.types.requiredFrom api.types.required id ∧
        ∀ depth, api.types.size < depth →
          api.types.requiredWithin depth id = api.types.required id) ∧
      (∀ i, Relation.TransGen api.types.HasConstituent i i ↔
        ∃ scope key, api.types.lookup ⟨scope, key⟩ = some i ∧
          (Resolver.mk d options).SelfComposed scope key) ∧
      (∀ name id, (name, id) ∈ api.models →
        ∃ n w, (name, n) ∈ d.components ∧
          (Resolver.mk d options).enter ⟨n, name, true⟩ = .ok w ∧
          api.types.lookup ((Resolver.mk d options).keyOf none w) = some id ∧
          (api.types.Ends id ↔ (Resolver.mk d options).WellComposed none w.node.key)) ∧
      ((∀ scope key, ¬ (Resolver.mk d options).SelfComposed scope key) →
        ∀ id, api.types.Ends id) := by
  unfold resolveText at h
  cases hload : Description.load text with
  | error fault =>
      rw [hload] at h
      cases h
  | ok d =>
      rw [hload] at h
      have hd := Description.tidy_of_load hload
      obtain ⟨s, hs, htypes⟩ := Resolver.settled_of_run hd h
      have hindexed := Resolver.indexed_of_run h
      have hbounded := (Resolver.partsBefore_of_run h).bounded
      rw [htypes] at hindexed
      refine ⟨d, rfl, hbounded, fun id hends => ⟨hends.required_eq, fun depth hlt =>
        hends.requiredWithin_of_lt hlt⟩, fun i => ?_, fun name id hmem => ?_, fun hnone id => ?_⟩
      · rw [htypes]
        exact hs.cycle_iff hd hindexed i
      · obtain ⟨n, w, hn, hin, hl⟩ := Resolver.exists_component_of_mem_models hd h hmem
        refine ⟨n, w, hn, hin, hl, ?_⟩
        rw [htypes] at hl ⊢
        exact hs.ends_iff hd hindexed hl
      · rw [htypes]
        refine TypeStore.ends_iff.mpr fun k _ hkk => ?_
        obtain ⟨scope, key, _, hself⟩ := (hs.cycle_iff hd hindexed k).mp hkk
        exact hnone scope key hself

/-! ## A node that is composed of itself -/

/-- A node is composed of itself. -/
def selfSchema : Schema :=
  .inline {} [.reference "#/components/schemas/Node"] [] [] [] none .none

/-- A description of it. -/
def selfDescription : Description where
  dialect := .early
  version := "3.0.0"
  schemas := [("Node", selfSchema)]

/-- The document of this description. -/
def selfDocument : Value :=
  .object [("openapi", .str "3.0.0"),
    ("info", .object [("title", .str "a"), ("version", .str "b")]), ("paths", .object []),
    ("components", .object [("schemas", .object [
      ("Node",
        .object [("allOf", .list [.object [("$ref", .str "#/components/schemas/Node")]])])])])]

/-- The text of this document. -/
def selfText : String :=
  "openapi: 3.0.0\ninfo:\n  title: a\n  version: b\npaths: \x7b\x7d\ncomponents:\n  schemas:\n"
    ++ "    Node:\n      allOf:\n        - $ref: '#/components/schemas/Node'\n"

theorem load_selfText : Description.load selfText = .ok selfDescription := by
  have hchars : selfText = String.ofList _ := Text.append_eq_ofList rfl rfl
  have hread : Yaml.read? selfText = some selfDocument := by
    rw [Yaml.read?_ofList hchars]
    decide +kernel
  rw [Description.load, hread]
  with_unfolding_all rfl

/-- The visit of the node. -/
def selfVisit : Visit := ⟨⟨SchemaKey.component "Node", selfSchema⟩, "Node", true⟩

/-- The node is resolved, below itself, and its required properties do not come to an end. -/
theorem report_of_selfText :
    ∃ api id, resolveText selfText {} = .ok api ∧ ("Node", id) ∈ api.models ∧
      Relation.TransGen api.types.HasConstituent id id ∧ ¬ api.types.Ends id := by
  have hruns : (Resolver.mk selfDescription {}).run.toOption.map (·.models)
      = some [("Node", 0)] := by decide +kernel
  cases h : resolveText selfText {} with
  | error e =>
      rw [resolveText, load_selfText] at h
      simp only at h
      rw [h] at hruns
      cases hruns
  | ok api =>
      obtain ⟨d, hload, _, _, hcycle, hmodels, _⟩ := report_of_resolveText h
      rw [load_selfText] at hload
      cases hload
      have hmem : ("Node", 0) ∈ api.models := by
        rw [resolveText, load_selfText] at h
        simp only at h
        rw [h] at hruns
        have hone : api.models = [("Node", 0)] := Option.some.inj hruns
        rw [hone]
        exact List.mem_cons_self
      obtain ⟨n, w, hn, hin, hl, hends⟩ := hmodels "Node" 0 hmem
      cases List.mem_singleton.mp hn
      have hw : w = selfVisit := by
        have hself : (Resolver.mk selfDescription {}).enter selfVisit = .ok selfVisit := rfl
        exact Except.ok.inj (hin.symm.trans hself)
      have hcomposed : (Resolver.mk selfDescription {}).Composed none selfVisit :=
        ⟨rfl, fun hnone => by cases hnone⟩
      have hleads : (Resolver.mk selfDescription {}).Leads none selfVisit selfVisit :=
        ⟨_, List.mem_cons_self, by with_unfolding_all rfl⟩
      have hproper : selfVisit.Proper selfDescription :=
        Visit.proper_component (Description.tidy_of_load load_selfText) List.mem_cons_self
      have hself : (Resolver.mk selfDescription {}).SelfComposed none selfVisit.node.key :=
        .single ⟨selfVisit, selfVisit, hproper, ⟨hcomposed, hleads⟩, hcomposed, rfl, rfl⟩
      rw [hw] at hl hends
      refine ⟨api, 0, rfl, hmem, (hcycle 0).mpr ⟨none, _, hl, hself⟩, fun hended => ?_⟩
      exact hends.mp hended _ .refl hself

end ApiTypes
