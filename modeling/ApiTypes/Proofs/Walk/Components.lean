import ApiTypes.Proofs.Walk.Tiles

/-!
# When all components are resolved

Once all components are resolved, exactly the schemas that they lead to are remembered, each in
slots of its own (`Resolver.Complete`). What such a schema is, is told by its demand alone; only for
a composed type it may depend on the order of the components which constituents it keeps, if one of
them is of alternatives and leads back to it (`Complete.mark_eq`).
-/

set_option autoImplicit false

namespace ApiTypes

namespace Resolver

/-- The state when all components are resolved. -/
structure Complete (r : Resolver) (s : WalkState) : Prop where
  /-- Everything that is remembered is met. -/
  settled : r.Settled r.Reached s
  /-- Every slot is made for one schema. -/
  tiled : r.Tiled none s.types
  /-- All components can be entered. -/
  enters : ∀ name n, (name, n) ∈ r.description.components → ∃ w, r.enter ⟨n, name, true⟩ = .ok w
  /-- What components lead to is remembered. -/
  lookup_some : ∀ v, r.Reached v → ∃ id, s.types.lookup (r.keyOf none v) = some id

variable {r : Resolver} {s s' : WalkState} {v w : Visit}

/-- The slot of a component in a store. -/
def slotOf (r : Resolver) (s : TypeStore) (entry : String × SchemaNode) : Nat :=
  match r.enter ⟨entry.2, entry.1, true⟩ with
  | .ok w => (s.lookup (r.keyOf none w)).getD 0
  | .error _ => 0

theorem slotOf_eq {types : TypeStore} {entry : String × SchemaNode}
    (hin : r.enter ⟨entry.2, entry.1, true⟩ = .ok w) {id : Nat}
    (hl : types.lookup (r.keyOf none w) = some id) : r.slotOf types entry = id := by
  rw [slotOf, hin]
  simp only
  rw [hl]
  rfl

/-- Components are resolved one after the other. -/
theorem answered_of_resolveComponents_cons {name : String} {n : SchemaNode}
    {rest : List (String × SchemaNode)} {models : List (String × TypeId)}
    (h : (r.resolveComponents ((name, n) :: rest)).outcome s = (.ok models, s')) :
    ∃ (id : Nat) (others : List (String × TypeId)) (s₁ : WalkState), models = (name, id) :: others ∧
      Answered r (.component n name) s (.ok ⟨id, []⟩) s₁ ∧
      (r.resolveComponents rest).outcome s₁ = (.ok others, s') := by
  have hq := answered_ask (r := r) (.component n name) s
  rw [outcome_ask_component] at hq
  have hvisit : r.resolveComponent n name
      = r.resolveVisit none (r.depthFor n) ⟨n, name, true⟩ := rfl
  rw [resolveComponents, hvisit, Walk.outcome_bind] at h
  cases ho : (r.resolveVisit none (r.depthFor n) ⟨n, name, true⟩).outcome s with
  | mk told s₁ =>
      rw [ho] at h hq
      cases told with
      | error e => cases h
      | ok id =>
          simp only [Walk.outcome_bind] at h
          cases hrest : (r.resolveComponents rest).outcome s₁ with
          | mk told' s₂ =>
              rw [hrest] at h
              cases told' with
              | error e => cases h
              | ok others =>
                  cases h
                  exact ⟨id, others, s₁, rfl, hq, hrest⟩

/-- When components are resolved one after the other, each is remembered. -/
theorem settled_of_resolveComponents (hd : r.description.Tidy)
    {components : List (String × SchemaNode)} {models : List (String × TypeId)}
    (hsub : ∀ entry ∈ components, entry ∈ r.description.components)
    (h : (r.resolveComponents components).outcome s = (.ok models, s'))
    (hs : r.Settled r.Reached s) (htiled : r.Tiled none s.types) :
    r.Settled r.Reached s' ∧ r.Tiled none s'.types ∧ Grows s.types s'.types ∧
      (∀ entry ∈ components, ∃ w, r.enter ⟨entry.2, entry.1, true⟩ = .ok w ∧
        ∃ id, s'.types.lookup (r.keyOf none w) = some id) ∧
      models = components.map fun entry => (entry.1, r.slotOf s'.types entry) := by
  induction components generalizing s models with
  | nil =>
      cases h
      exact ⟨hs, htiled, Grows.refl _, fun _ hmem => absurd hmem List.not_mem_nil, rfl⟩
  | cons entry rest ih =>
      obtain ⟨name, n⟩ := entry
      have hmem := hsub (name, n) List.mem_cons_self
      obtain ⟨id, others, s₁, rfl, hans, hrest⟩ := answered_of_resolveComponents_cons h
      have hgrows := hans.grows
      cases hans with
      | component hw =>
          obtain ⟨hs₁, w, hin, hl⟩ := hs.of_walked (ranges_reached hd) hw
            fun w hin => Reached.component hmem hin
          have htiled₁ : r.Tiled none s₁.types := by
            refine hw.tiled hd (fun x hx => ?_) hs.closed htiled
            rw [List.mem_singleton.mp hx]
            exact Visit.proper_component hd hmem
          obtain ⟨hs', htiled', hgrows', htold, rfl⟩ :=
            ih (fun e he => hsub e (List.mem_cons_of_mem _ he)) hrest hs₁ htiled₁
          have hl' := hgrows'.lookup_eq _ _ hl
          refine ⟨hs', htiled', hgrows.trans hgrows', fun entry hmem' => ?_, ?_⟩
          · rcases List.mem_cons.mp hmem' with rfl | hmem'
            · exact ⟨w, hin, _, hl'⟩
            · exact htold entry hmem'
          · have hslot : r.slotOf s'.types (name, n) = id := slotOf_eq hin hl'
            rw [List.map_cons, hslot]

/-- **When all components are resolved, what they lead to is remembered.** -/
theorem complete_of_resolveComponents (hd : r.description.Tidy)
    {components : List (String × SchemaNode)} {models : List (String × TypeId)}
    (hmem : ∀ entry, entry ∈ components ↔ entry ∈ r.description.components)
    (h : (r.resolveComponents components).outcome {} = (.ok models, s)) :
    r.Complete s ∧ models = components.map fun entry => (entry.1, r.slotOf s.types entry) := by
  obtain ⟨hs, htiled, _, htold, hmodels⟩ := settled_of_resolveComponents hd
    (fun e he => (hmem e).mp he) h (Settled.empty r _) Tiled.empty
  refine ⟨⟨hs, htiled, fun name n he => ?_, fun v hv => ?_⟩, hmodels⟩
  · obtain ⟨w, hin, _⟩ := htold (name, n) ((hmem _).mpr he)
    exact ⟨w, hin⟩
  · induction hv with
    | component he hin =>
        obtain ⟨w, hin', hl⟩ := htold _ ((hmem _).mpr he)
        rw [hin] at hin'
        cases hin'
        exact hl
    | @step v w hv hlead ih =>
        obtain ⟨id, hl⟩ := ih
        have hlink : r.Link none v.node.key w.node.key := ⟨v, w, hv.proper hd, hlead, rfl, rfl⟩
        exact (hs.standing none).lookup_of_link (ranges_reached hd) hlink hl
          fun u hu => by cases hu

namespace Complete

/-- What is remembered is a schema that the components lead to, on its slot. -/
theorem known (h : r.Complete s) {key : MemoKey} {id : Nat} (hk : s.types.lookup key = some id) :
    ∃ v, r.Reached v ∧ key = r.keyOf none v ∧ r.Meets none s.types v id ∧
      s.types.annotations id
        = (r.nodeAnnotations none v.node v.features).foldl TypeStore.addAnnotation [] := by
  obtain ⟨v, hv⟩ := h.settled.known key id hk
  obtain ⟨u, _, hu⟩ := h.tiled.key_eq key id hk
  have hscope : key.scope = none := by
    rw [← hu]
    rfl
  have hkey := hv.key_eq
  have hmeets := hv.meets
  have hannotations := hv.annotations_eq
  rw [hscope] at hkey hmeets hannotations
  exact ⟨v, hv.holds, hkey.symm, hmeets, hannotations⟩

/-- A schema that the components lead to is met on its slot. -/
theorem meets (hd : r.description.Tidy) (h : r.Complete s) (hv : r.Reached v) {id : Nat}
    (hk : s.types.lookup (r.keyOf none v) = some id) :
    r.Meets none s.types v id ∧ s.types.annotations id
      = (r.nodeAnnotations none v.node v.features).foldl TypeStore.addAnnotation [] := by
  obtain ⟨w, hw, hkey, hmeets⟩ := h.known hk
  have hvw : v = w := hv.unique hd hw (congrArg MemoKey.schema hkey)
  rw [hvw]
  exact hmeets

end Complete

end Resolver

/-! ## Constituents -/

/-- Whether the type that is demanded may be a constituent. -/
def Demand.makesConstituent : Demand → Bool
  | fault _ => false
  | block _ last => Resolver.isConstituent (some last)
  | wrapper _ shape => Resolver.isConstituent (some shape)
  | composite _ shape => Resolver.isConstituent (some shape)

namespace Resolver

theorem isConstituent_rename (σ : Nat → Nat) (t : ModelType) :
    isConstituent (some (t.rename σ)) = isConstituent (some t) := by
  cases t with
  | _ => rfl

theorem isConstituent_filled (shape : ModelType) (found : List (Nat × Bool)) :
    isConstituent (some (Demand.filled shape found)) = isConstituent (some shape) := by
  cases shape with
  | _ => rfl

variable {r : Resolver} {path : Option String} {s : WalkState} {v w : Visit} {id : Nat}

/-- Whether a slot may be a constituent is told by the demand that it meets. -/
theorem Meets.isConstituent_get? {types : TypeStore} (h : r.Meets path types v id) :
    isConstituent (types.get? id) = (r.demand path v).makesConstituent := by
  cases hd : r.demand path v with
  | fault e => exact absurd hd h.not_fault
  | block inner last =>
      obtain ⟨base, hid, hinner⟩ := h.of_block hd
      have hlast : types.get? (base + inner.length : Nat) = some (last.rename (base + ·)) := by
        refine hinner inner.length last ?_
        rw [List.getElem?_append_right (Nat.le_refl _), Nat.sub_self]
        rfl
      rw [hid, hlast, isConstituent_rename]
      rfl
  | wrapper item shape =>
      obtain ⟨itemId, _, _, hget⟩ := h.of_wrapper hd
      rw [hget, isConstituent_rename]
      rfl
  | composite children shape =>
      obtain ⟨found, _, hget⟩ := h.of_composite hd
      rw [hget, isConstituent_filled]
      rfl

/-- A schema below another one that is of alternatives and leads back to it. -/
def LeadsBack (r : Resolver) (v : Visit) (c : Child) : Prop :=
  ∃ w, r.enter c.visit = .ok w ∧ (r.demand none w).isComposite = true ∧
    (r.demand none w).makesConstituent = false ∧
    Relation.ReflTransGen (r.Link none) w.node.key v.node.key

/-- A composed schema one of whose constituents is of alternatives and leads back to it. -/
def TurnsBack (r : Resolver) (v : Visit) : Prop :=
  ∃ children name package items deprecated,
    r.demand none v = .composite children (.allOf name package items deprecated) ∧
    ∃ c ∈ children, r.LeadsBack v c

/-- **The mark of a schema below another one.** It tells whether its type may be a constituent,
except that a schema of alternatives that leads back may be marked too. -/
theorem Complete.mark_eq (hd : r.description.Tidy) (h : r.Complete s) (hv : r.Reached v)
    {c : Child} (hc : c ∈ (r.demand none v).children) {entry : Nat × Bool}
    (hfinds : r.Finds none s.types c entry.1) (hmarked : r.Marked none s.types v c entry) :
    entry.2 = isConstituent (s.types.get? entry.1) ∨
    (entry.2 = true ∧ isConstituent (s.types.get? entry.1) = false ∧ r.LeadsBack v c) := by
  obtain ⟨w, hin, hl⟩ := hfinds
  have hw : r.Reached w := hv.step ⟨c, hc, hin⟩
  have hget := (h.meets hd hw hl).1.isConstituent_get?
  rcases hmarked with ⟨t, ht, hmark⟩ | ⟨hmark, x, hx, hcomposite, hback⟩
  · rw [ht]
    exact Or.inl hmark
  · rw [hin] at hx
    cases hx
    rw [hget]
    cases hmakes : (r.demand none w).makesConstituent with
    | true => exact Or.inl hmark
    | false => exact Or.inr ⟨hmark, rfl, w, hin, hcomposite, hmakes, hback⟩

end Resolver

end ApiTypes
