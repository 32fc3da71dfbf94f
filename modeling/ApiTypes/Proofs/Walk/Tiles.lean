import ApiTypes.Proofs.Walk.Names

/-!
# Whose slots there are

Every slot that the walk takes is made for one schema: it is the slot that is remembered for the
schema, or stands before it in the block of types that the schema demands. In a store that was
filled by calls on one path alone, each slot is made for exactly one remembered schema
(`Walked.tiled`), and only slots that are remembered have annotations.
-/

set_option autoImplicit false

namespace ApiTypes

namespace Demand

/-- How many types a demand needs before that of the schema. -/
def span : Demand → Nat
  | block inner _ => inner.length
  | _ => 0

/-- How many types an outline needs before that of the schema. -/
def Outline.span : Outline → Nat
  | block inner => inner.length
  | _ => 0

theorem span_outline (demand : Demand) : demand.outline.span = demand.span := by
  cases demand with
  | fault e => rfl
  | block inner last => rfl
  | wrapper item shape => rfl
  | composite children shape => rfl

end Demand

namespace Resolver

variable (r : Resolver) (path : Option String)

/-- Proper schemas of one key need equally many types. -/
theorem span_eq_of_key_eq {v w : Visit} (hv : v.Proper r.description)
    (hw : w.Proper r.description) (hkey : r.keyOf path v = r.keyOf path w) :
    (r.demand path v).span = (r.demand path w).span := by
  have hkeys : v.node.key = w.node.key := congrArg MemoKey.schema hkey
  have houtline := congrArg Demand.Outline.span (outline_demand path hv hw hkeys)
  rw [Demand.span_outline, Demand.span_outline] at houtline
  exact houtline

/-- A slot is made for a schema, some places before the slot that is remembered for it. -/
structure Tile (s : TypeStore) (key : MemoKey) (back i : Nat) : Prop where
  /-- The slot that is remembered. -/
  lookup_eq : s.lookup key = some (i + back)
  /-- The schema needs so many types. -/
  le_span : ∃ v, v.Proper r.description ∧ r.keyOf path v = key ∧
    back ≤ (r.demand path v).span

/-- A store in which every slot is made for one schema. -/
structure Tiled (s : TypeStore) : Prop where
  /-- Every slot is made for a schema. -/
  cover : ∀ i : Nat, i < s.size → ∃ key back, r.Tile path s key back i
  /-- No slot is made for two schemas, or twice. -/
  unique : ∀ (key key' : MemoKey) (back back' i : Nat), r.Tile path s key back i →
    r.Tile path s key' back' i → key = key' ∧ back = back'
  /-- Slots that are not remembered have no annotations. -/
  annotations_eq : ∀ i : Nat, (∀ key, ¬ s.lookup key = some i) → s.annotations i = []
  /-- What is remembered is remembered for a schema on the path. -/
  key_eq : ∀ (key : MemoKey) (id : Nat), s.lookup key = some id →
    ∃ v, v.Proper r.description ∧ r.keyOf path v = key

namespace Tiled

variable {r : Resolver} {path : Option String} {s s' : TypeStore} {w : Visit}

theorem empty : r.Tiled path {} where
  cover i hi := absurd hi (Nat.not_lt_zero i)
  unique key key' back back' i h _ := by cases h.lookup_eq
  annotations_eq i _ := rfl
  key_eq key id hk := by cases hk

/-- A store in which the same is remembered, and what is annotated is remembered. -/
theorem same (h : r.Tiled path s) (hsize : s'.size = s.size)
    (hlookup : ∀ key, s'.lookup key = s.lookup key)
    (hannotations : ∀ i : Nat, (∀ key, ¬ s.lookup key = some i) →
      s'.annotations i = s.annotations i) : r.Tiled path s' where
  cover i hi := by
    rw [hsize] at hi
    obtain ⟨key, back, htile⟩ := h.cover i hi
    exact ⟨key, back, by rw [hlookup]; exact htile.lookup_eq, htile.le_span⟩
  unique key key' back back' i h₁ h₂ := by
    refine h.unique key key' back back' i ⟨?_, h₁.le_span⟩ ⟨?_, h₂.le_span⟩
    · rw [← hlookup]
      exact h₁.lookup_eq
    · rw [← hlookup]
      exact h₂.lookup_eq
  annotations_eq i hi := by
    have hi' : ∀ key, ¬ s.lookup key = some i := fun key => by
      rw [← hlookup]
      exact hi key
    rw [hannotations i hi', h.annotations_eq i hi']
  key_eq key id hk := by
    rw [hlookup] at hk
    exact h.key_eq key id hk

/-- A store that has the slots for one more schema, the last of which is remembered for it. -/
theorem grow (h : r.Tiled path s) (hs : s.Closed) (hw : w.Proper r.description)
    (hnone : s.lookup (r.keyOf path w) = none)
    (hsize : s'.size = s.size + ((r.demand path w).span + 1))
    (hlookup : ∀ key, s'.lookup key
      = if key = r.keyOf path w then some (s.size + (r.demand path w).span) else s.lookup key)
    (hannotations : ∀ i : Nat, ¬ i = s.size + (r.demand path w).span →
      s'.annotations i = s.annotations i) : r.Tiled path s' := by
  have hold : ∀ {key : MemoKey} {id : Nat}, s.lookup key = some id →
      s'.lookup key = some id ∧ id < s.size := by
    intro key id hk
    refine ⟨?_, hs.lookup_lt key id hk⟩
    have hne : ¬ key = r.keyOf path w := by
      intro heq
      rw [heq, hnone] at hk
      cases hk
    rw [hlookup, if_neg hne]
    exact hk
  have hnew : s'.lookup (r.keyOf path w) = some (s.size + (r.demand path w).span) := by
    rw [hlookup, if_pos rfl]
  -- A tile of the larger store is one of the smaller store, or stands in the new block.
  have hcases : ∀ {key : MemoKey} {back i : Nat}, r.Tile path s' key back i →
      (r.Tile path s key back i ∧ i < s.size) ∨
      (key = r.keyOf path w ∧ i + back = s.size + (r.demand path w).span ∧ s.size ≤ i) := by
    intro key back i htile
    by_cases heq : key = r.keyOf path w
    · refine Or.inr ⟨heq, ?_⟩
      obtain ⟨v, hv, hkey, hle⟩ := htile.le_span
      rw [span_eq_of_key_eq r path hv hw (hkey.trans heq)] at hle
      have hid := htile.lookup_eq
      rw [heq, hnew] at hid
      have hsum : s.size + (r.demand path w).span = i + back := Option.some.inj hid
      omega
    · refine Or.inl ⟨⟨?_, htile.le_span⟩, ?_⟩
      · have hid := htile.lookup_eq
        rw [hlookup, if_neg heq] at hid
        exact hid
      · have hid := htile.lookup_eq
        rw [hlookup, if_neg heq] at hid
        have := hs.lookup_lt key _ hid
        omega
  refine ⟨fun i hi => ?_, fun key key' back back' i h₁ h₂ => ?_, fun i hi => ?_,
    fun key id hk => ?_⟩
  · by_cases hlt : i < s.size
    · obtain ⟨key, back, htile⟩ := h.cover i hlt
      exact ⟨key, back, (hold htile.lookup_eq).1, htile.le_span⟩
    · rw [hsize] at hi
      refine ⟨r.keyOf path w, s.size + (r.demand path w).span - i, ?_, w, hw, rfl, by omega⟩
      rw [hnew]
      exact congrArg some (by omega)
  · rcases hcases h₁ with ⟨h₁, hlt⟩ | ⟨hkey, hsum, hle⟩
    · rcases hcases h₂ with ⟨h₂, _⟩ | ⟨_, _, hle⟩
      · exact h.unique key key' back back' i h₁ h₂
      · omega
    · rcases hcases h₂ with ⟨_, hlt⟩ | ⟨hkey', hsum', _⟩
      · omega
      · exact ⟨hkey.trans hkey'.symm, by omega⟩
  · have hne : ¬ i = s.size + (r.demand path w).span := by
      rintro rfl
      exact hi _ hnew
    rw [hannotations i hne]
    refine h.annotations_eq i fun key hk => ?_
    exact hi key (hold hk).1
  · rw [hlookup] at hk
    split at hk
    · rename_i heq
      exact ⟨w, hw, heq.symm⟩
    · exact h.key_eq key id hk

end Tiled

end Resolver

/-- **Calls on one path make each slot for one schema, however they end.** -/
theorem Walked.tiled {r : Resolver} {path : Option String} {depth : Nat} {c : Call}
    {s s' : WalkState} {out : Except Error c.Out} (hd : r.description.Tidy)
    (h : Walked r path depth c s out s') (hc : ∀ x ∈ c.visits, x.Proper r.description)
    (hclosed : s.types.Closed) (hs : r.Tiled path s.types) : r.Tiled path s'.types := by
  have hone : ∀ {v : Visit}, (∀ x ∈ (Call.one v).visits, x.Proper r.description) →
      v.Proper r.description := fun hv => hv _ List.mem_cons_self
  have hstart : ∀ {v w : Visit} {s : WalkState}, w.Proper r.description →
      r.Enters path v s w → (r.demand path w).span = 0 → s.types.Closed →
      r.Tiled path s.types → r.Tiled path (s.start (r.keyOf path w)).types := by
    intro v w s hw hin hspan hclosed hs
    refine hs.grow hclosed hw hin.lookup_eq ?_ (fun key => ?_) fun i _ => ?_
    · rw [WalkState.size_start, hspan]
    · rw [WalkState.types_start, TypeStore.lookup_remember, TypeStore.lookup_reserve, hspan]
      rfl
    · rw [WalkState.types_start, TypeStore.annotations_remember, TypeStore.annotations_reserve]
  have hbelow : ∀ {w x : Visit} {children : List Child} {shape : ModelType},
      w.Proper r.description → r.demand path w = .composite children shape →
      x ∈ (Call.each children).visits → x.Proper r.description := by
    intro w x children shape hw hd' hx
    obtain ⟨child, hchild, rfl⟩ := List.mem_map.mp hx
    have hmem : child ∈ (r.demand path w).children := by
      rw [hd']
      exact hchild
    exact hw.child hd (Resolver.node_mem_of_demand hmem)
  induction h with
  | deep => exact hs
  | strayed hv => exact hs
  | found hv hl => exact hs
  | cyclic hv hl hp => exact hs
  | fault hin hd' => exact hs
  | @block depth v w s inner last hin hd' =>
      have hw := Resolver.proper_of_enter (hone hc) hin.enter_eq
      have hspan : (r.demand path w).span = inner.length := by rw [hd']; rfl
      refine hs.grow hclosed hw hin.lookup_eq ?_ (fun key => ?_) fun i hi => ?_
      · rw [WalkState.types_withTypes, Resolver.size_settle, TypeStore.size_addBlock, hspan]
      · rw [WalkState.types_withTypes, Resolver.lookup_settle, TypeStore.lookup_addBlock, hspan]
      · rw [hspan] at hi
        rw [WalkState.types_withTypes, Resolver.annotations_settle_of_ne hi, TypeStore.addBlock,
          TypeStore.annotations_addAll]
  | @wrapperFails depth v w s s₁ item shape e hin hd' _ ih =>
      have hw := Resolver.proper_of_enter (hone hc) hin.enter_eq
      have hitem : item ∈ (r.demand path w).children := by
        rw [hd']
        exact List.mem_cons_self
      refine ih (fun x hx => ?_) hclosed hs
      rw [List.mem_singleton.mp hx]
      exact hw.child hd (Resolver.node_mem_of_demand hitem)
  | @wrapper depth v w s s₁ item shape id hin hd' h₁ ih =>
      have hw := Resolver.proper_of_enter (hone hc) hin.enter_eq
      have hspan : (r.demand path w).span = 0 := by rw [hd']; rfl
      have hitem : item ∈ (r.demand path w).children := by
        rw [hd']
        exact List.mem_cons_self
      have hs₁ : r.Tiled path s₁.types := by
        refine ih (fun x hx => ?_) hclosed hs
        rw [List.mem_singleton.mp hx]
        exact hw.child hd (Resolver.node_mem_of_demand hitem)
      have hnone : s₁.types.lookup (r.keyOf path w) = none :=
        h₁.lookup_of_mem_pending List.mem_cons_self hin.lookup_eq
      refine hs₁.grow (h₁.closed hclosed).1 hw hnone ?_ (fun key => ?_) fun i hi => ?_
      · rw [Resolver.types_settled, Resolver.size_settle, WalkState.types_withTypes,
          TypeStore.size_add, hspan]
      · rw [Resolver.types_settled, Resolver.lookup_settle, WalkState.types_withTypes,
          TypeStore.lookup_add, hspan]
        rfl
      · rw [hspan, Nat.add_zero] at hi
        rw [Resolver.types_settled, Resolver.annotations_settle_of_ne hi,
          WalkState.types_withTypes, TypeStore.annotations_add]
  | @compositeFails depth v w s s₁ children shape e hin hd' _ ih =>
      have hw := Resolver.proper_of_enter (hone hc) hin.enter_eq
      refine ih (fun x hx => ?_) (WalkState.closed_start hclosed _)
        (hstart hw hin (by rw [hd']; rfl) hclosed hs)
      exact hbelow hw hd' hx
  | @composite depth v w s s₁ children shape found hin hd' h₁ ih =>
      have hw := Resolver.proper_of_enter (hone hc) hin.enter_eq
      have hs₁ : r.Tiled path s₁.types := by
        refine ih (fun x hx => ?_) (WalkState.closed_start hclosed _)
          (hstart hw hin (by rw [hd']; rfl) hclosed hs)
        exact hbelow hw hd' hx
      have hkey : s₁.types.lookup (r.keyOf path w) = some s.types.size :=
        h₁.grows.lookup_eq _ _ (s.lookup_start _)
      refine hs₁.same ?_ (fun key => ?_) fun i hi => ?_
      · rw [Resolver.types_settled, Resolver.size_settle, WalkState.types_withTypes,
          TypeStore.size_fill]
      · rw [Resolver.types_settled, Resolver.lookup_settle, WalkState.types_withTypes,
          TypeStore.lookup_fill]
        split
        · rename_i heq
          rw [heq, hkey]
        · rfl
      · have hne : ¬ i = s.types.size := by
          rintro rfl
          exact hi _ hkey
        rw [Resolver.types_settled, Resolver.annotations_settle_of_ne hne,
          WalkState.types_withTypes, TypeStore.annotations_fill]
  | nil => exact hs
  | @headFails depth child rest s s₁ e _ ih =>
      refine ih (fun x hx => ?_) hclosed hs
      rw [List.mem_singleton.mp hx]
      exact hc _ (List.mem_map_of_mem List.mem_cons_self)
  | @tailFails depth child rest s s₁ s₂ e id h₁ _ ih₁ ih₂ =>
      refine ih₂ (fun x hx => hc x (List.mem_cons_of_mem _ hx)) (h₁.closed hclosed).1
        (ih₁ (fun x hx => ?_) hclosed hs)
      rw [List.mem_singleton.mp hx]
      exact hc _ (List.mem_map_of_mem List.mem_cons_self)
  | @cons depth child rest s s₁ s₂ id others h₁ _ ih₁ ih₂ =>
      refine ih₂ (fun x hx => hc x (List.mem_cons_of_mem _ hx)) (h₁.closed hclosed).1
        (ih₁ (fun x hx => ?_) hclosed hs)
      rw [List.mem_singleton.mp hx]
      exact hc _ (List.mem_map_of_mem List.mem_cons_self)

end ApiTypes
