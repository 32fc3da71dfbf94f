import ApiTypes.Proofs.Walk.Matching

/-!
# Walks in two stores

Two stores are twins if slots of one stand for slots of the other one: up to a boundary by some
matching of slots, and from there on in the order in which they were taken (`Twin`). A walk goes the
same way in both and leaves twins behind (`Walked.twin`), and so do requests (`Answered.twin`). Of
the slots before the boundary nothing counts for this but whether their types may be constituents.
-/

set_option autoImplicit false

namespace ApiTypes

/-- A matching of slots that goes on in order from a boundary. -/
structure Renames (σ : Nat → Nat) (n n' : Nat) : Prop where
  /-- Different slots are matched with different slots. -/
  injective : Function.Injective σ
  /-- Slots before the boundary are matched with slots before the other one. -/
  lt : ∀ i, i < n → σ i < n'
  /-- Slots from the boundary on are matched in order. -/
  shift : ∀ i, n ≤ i → σ i = n' + (i - n)

/-- Two stores with the same types from a boundary on, but for the numbers of slots. -/
structure Twin (σ : Nat → Nat) (n n' : Nat) (s s' : TypeStore) : Prop where
  /-- The boundary is in the store. -/
  le_size : n ≤ s.size
  /-- As many slots were taken in both stores. -/
  size_eq : s'.size = n' + (s.size - n)
  /-- The same is remembered. -/
  lookup_eq : ∀ key, s'.lookup key = (s.lookup key).map σ
  /-- Matched slots have the same annotations. -/
  annotations_eq : ∀ i : Nat, s'.annotations (σ i) = s.annotations i
  /-- Matched slots before the boundary may be constituents alike. -/
  makes_eq : ∀ i : Nat, i < n →
    Resolver.isConstituent (s'.get? (σ i)) = Resolver.isConstituent (s.get? i)
  /-- Matched slots from the boundary on have the same types. -/
  get?_eq : ∀ i : Nat, n ≤ i → s'.get? (σ i) = (s.get? i).map (·.rename σ)

namespace Twin

variable {σ : Nat → Nat} {n n' : Nat} {s s' : TypeStore}

/-- The next slots of twins are matched. -/
theorem next (h : Twin σ n n' s s') (hσ : Renames σ n n') (i : Nat) :
    σ (s.size + i) = s'.size + i := by
  have hle := h.le_size
  rw [hσ.shift _ (Nat.le_trans hle (Nat.le_add_right _ _)), h.size_eq]
  omega

theorem isConstituent_eq (h : Twin σ n n' s s') (i : Nat) :
    Resolver.isConstituent (s'.get? (σ i)) = Resolver.isConstituent (s.get? i) := by
  by_cases hi : i < n
  · exact h.makes_eq i hi
  · rw [h.get?_eq i (Nat.le_of_not_lt hi)]
    cases s.get? i with
    | none => rfl
    | some t => exact Resolver.isConstituent_rename σ t

theorem lookup_some (h : Twin σ n n' s s') {key : MemoKey} {id : Nat}
    (hk : s.lookup key = some id) : s'.lookup key = some (σ id) := by
  rw [h.lookup_eq, hk]
  rfl

theorem lookup_none (h : Twin σ n n' s s') {key : MemoKey} (hk : s.lookup key = none) :
    s'.lookup key = none := by
  rw [h.lookup_eq, hk]
  rfl

theorem lt_size_iff (h : Twin σ n n' s s') (hσ : Renames σ n n') (i : Nat) :
    σ i < s'.size ↔ i < s.size := by
  have hle := h.le_size
  rw [h.size_eq]
  by_cases hi : i < n
  · have := hσ.lt i hi
    omega
  · rw [hσ.shift i (Nat.le_of_not_lt hi)]
    omega

/-! ## Steps of twins -/

theorem addAll (h : Twin σ n n' s s') (hσ : Renames σ n n') (ts : List ModelType) :
    Twin σ n n' (s.addAll ts) (s'.addAll (ts.map (·.rename σ))) where
  le_size := by
    rw [TypeStore.size_addAll]
    exact Nat.le_trans h.le_size (Nat.le_add_right _ _)
  size_eq := by
    have hle := h.le_size
    rw [TypeStore.size_addAll, TypeStore.size_addAll, List.length_map, h.size_eq]
    omega
  lookup_eq key := by rw [TypeStore.lookup_addAll, TypeStore.lookup_addAll, h.lookup_eq]
  annotations_eq i := by
    rw [TypeStore.annotations_addAll, TypeStore.annotations_addAll, h.annotations_eq]
  makes_eq i hi := by
    have hlt : i < s.size := Nat.lt_of_lt_of_le hi h.le_size
    rw [TypeStore.get?_addAll, TypeStore.get?_addAll, if_pos hlt,
      if_pos ((h.lt_size_iff hσ i).mpr hlt), h.makes_eq i hi]
  get?_eq i hi := by
    rw [TypeStore.get?_addAll, TypeStore.get?_addAll]
    by_cases hlt : i < s.size
    · rw [if_pos hlt, if_pos ((h.lt_size_iff hσ i).mpr hlt), h.get?_eq i hi]
    · have hindex : σ i - s'.size = i - s.size := by
        have hle := h.le_size
        rw [hσ.shift i hi, h.size_eq]
        omega
      rw [if_neg hlt, if_neg fun hlt' => hlt ((h.lt_size_iff hσ i).mp hlt'), hindex,
        List.getElem?_map]

theorem reserve (h : Twin σ n n' s s') : Twin σ n n' s.reserve.2 s'.reserve.2 where
  le_size := by
    rw [TypeStore.size_reserve]
    exact Nat.le_succ_of_le h.le_size
  size_eq := by
    have hle := h.le_size
    rw [TypeStore.size_reserve, TypeStore.size_reserve, h.size_eq]
    omega
  lookup_eq key := by rw [TypeStore.lookup_reserve, TypeStore.lookup_reserve, h.lookup_eq]
  annotations_eq i := by
    rw [TypeStore.annotations_reserve, TypeStore.annotations_reserve, h.annotations_eq]
  makes_eq i hi := by
    rw [TypeStore.get?_reserve, TypeStore.get?_reserve, h.makes_eq i hi]
  get?_eq i hi := by
    rw [TypeStore.get?_reserve, TypeStore.get?_reserve, h.get?_eq i hi]

theorem remember (h : Twin σ n n' s s') (key : MemoKey) (id : Nat) :
    Twin σ n n' (s.remember key id) (s'.remember key (σ id)) where
  le_size := by
    rw [TypeStore.size_remember]
    exact h.le_size
  size_eq := by rw [TypeStore.size_remember, TypeStore.size_remember, h.size_eq]
  lookup_eq other := by
    rw [TypeStore.lookup_remember, TypeStore.lookup_remember, h.lookup_eq]
    split
    · rfl
    · rfl
  annotations_eq i := by
    rw [TypeStore.annotations_remember, TypeStore.annotations_remember, h.annotations_eq]
  makes_eq i hi := by
    rw [TypeStore.get?_remember, TypeStore.get?_remember, h.makes_eq i hi]
  get?_eq i hi := by
    rw [TypeStore.get?_remember, TypeStore.get?_remember, h.get?_eq i hi]

theorem annotateAll (h : Twin σ n n' s s') (hσ : Renames σ n n') (id : Nat)
    (found : List Annotation) :
    Twin σ n n' (s.annotateAll id found) (s'.annotateAll (σ id) found) where
  le_size := by
    rw [TypeStore.size_annotateAll]
    exact h.le_size
  size_eq := by rw [TypeStore.size_annotateAll, TypeStore.size_annotateAll, h.size_eq]
  lookup_eq key := by
    rw [TypeStore.lookup_annotateAll, TypeStore.lookup_annotateAll, h.lookup_eq]
  annotations_eq i := by
    rw [TypeStore.annotations_annotateAll, TypeStore.annotations_annotateAll, h.annotations_eq]
    by_cases hi : i = id ∧ i < s.size
    · have hi' : σ i = σ id ∧ σ i < s'.size :=
        ⟨congrArg σ hi.1, (h.lt_size_iff hσ i).mpr hi.2⟩
      rw [if_pos hi, if_pos hi']
    · have hi' : ¬ (σ i = σ id ∧ σ i < s'.size) := fun both =>
        hi ⟨hσ.injective both.1, (h.lt_size_iff hσ i).mp both.2⟩
      rw [if_neg hi, if_neg hi']
  makes_eq i hi := by
    rw [TypeStore.get?_annotateAll, TypeStore.get?_annotateAll, h.makes_eq i hi]
  get?_eq i hi := by
    rw [TypeStore.get?_annotateAll, TypeStore.get?_annotateAll, h.get?_eq i hi]

theorem fill (h : Twin σ n n' s s') (hσ : Renames σ n n') {id : Nat} (hid : n ≤ id)
    (t : ModelType) : Twin σ n n' (s.fill id t) (s'.fill (σ id) (t.rename σ)) where
  le_size := by
    rw [TypeStore.size_fill]
    exact h.le_size
  size_eq := by rw [TypeStore.size_fill, TypeStore.size_fill, h.size_eq]
  lookup_eq key := by rw [TypeStore.lookup_fill, TypeStore.lookup_fill, h.lookup_eq]
  annotations_eq i := by
    rw [TypeStore.annotations_fill, TypeStore.annotations_fill, h.annotations_eq]
  makes_eq i hi := by
    have hne : ¬ (i = id ∧ i < s.size) := fun both => by omega
    have hne' : ¬ (σ i = σ id ∧ σ i < s'.size) := fun both => by
      have := hσ.injective both.1
      omega
    rw [TypeStore.get?_fill, TypeStore.get?_fill, if_neg hne, if_neg hne', h.makes_eq i hi]
  get?_eq i hi := by
    rw [TypeStore.get?_fill, TypeStore.get?_fill]
    by_cases heq : i = id ∧ i < s.size
    · have heq' : σ i = σ id ∧ σ i < s'.size :=
        ⟨congrArg σ heq.1, (h.lt_size_iff hσ i).mpr heq.2⟩
      rw [if_pos heq, if_pos heq']
      rfl
    · have heq' : ¬ (σ i = σ id ∧ σ i < s'.size) := fun both =>
        heq ⟨hσ.injective both.1, (h.lt_size_iff hσ i).mp both.2⟩
      rw [if_neg heq, if_neg heq', h.get?_eq i hi]

theorem settle (h : Twin σ n n' s s') (hσ : Renames σ n n') (r : Resolver)
    (path : Option String) (v : Visit) (id : Nat) :
    Twin σ n n' (r.settle path v id s) (r.settle path v (σ id) s') :=
  (h.remember _ id).annotateAll hσ id _

theorem addBlock (h : Twin σ n n' s s') (hσ : Renames σ n n') (inner : List ModelType)
    (last : ModelType) :
    Twin σ n n' (s.addBlock inner last).2 (s'.addBlock inner last).2 := by
  have htypes : (inner ++ [last]).map (·.rename (s'.size + ·))
      = ((inner ++ [last]).map (·.rename (s.size + ·))).map (·.rename σ) := by
    rw [List.map_map]
    refine List.map_congr_left fun t _ => ?_
    rw [Function.comp_apply, ModelType.rename_rename]
    exact ModelType.rename_congr fun i _ => (h.next hσ i).symm
  have hadd := h.addAll hσ ((inner ++ [last]).map (·.rename (s.size + ·)))
  rw [← htypes] at hadd
  exact hadd

theorem add (h : Twin σ n n' s s') (hσ : Renames σ n n') (shape : ModelType) (id : Nat) :
    Twin σ n n' (s.add (shape.rename fun _ => id)).2 (s'.add (shape.rename fun _ => σ id)).2 := by
  have hadd := h.addAll hσ [shape.rename fun _ => id]
  rw [List.map_singleton, ModelType.rename_rename] at hadd
  exact hadd

end Twin

/-! ## Calls of twins -/

/-- What a call tells, for other slots. -/
def Call.renamed (σ : Nat → Nat) : (c : Call) → c.Out → c.Out
  | one _ => fun id : Nat => σ id
  | each _ => fun found : List (Nat × Bool) => found.map fun entry => (σ entry.1, entry.2)

/-- States with the same schemas being resolved, and stores that are twins. -/
structure TwinStates (σ : Nat → Nat) (n n' : Nat) (s s' : WalkState) : Prop where
  /-- The stores are twins. -/
  types : Twin σ n n' s.types s'.types
  /-- The same schemas are being resolved. -/
  pending_eq : s'.pending = s.pending

namespace TwinStates

variable {σ : Nat → Nat} {n n' : Nat} {s s' : WalkState} {r : Resolver} {path : Option String}
  {v w : Visit}

theorem enters (h : TwinStates σ n n' s s') (hin : r.Enters path v s w) :
    r.Enters path v s' w where
  enter_eq := hin.enter_eq
  lookup_eq := h.types.lookup_none hin.lookup_eq
  notMem := by
    rw [h.pending_eq]
    exact hin.notMem

theorem push (h : TwinStates σ n n' s s') (key : MemoKey) :
    TwinStates σ n n' (s.push key) (s'.push key) where
  types := h.types
  pending_eq := by rw [WalkState.pending_push, WalkState.pending_push, h.pending_eq]

theorem pop (h : TwinStates σ n n' s s') (key : MemoKey) :
    TwinStates σ n n' (s.pop key) (s'.pop key) where
  types := h.types
  pending_eq := by rw [WalkState.pending_pop, WalkState.pending_pop, h.pending_eq]

theorem start (h : TwinStates σ n n' s s') (hσ : Renames σ n n') (key : MemoKey) :
    TwinStates σ n n' (s.start key) (s'.start key) where
  types := by
    have hnext : σ s.types.size = s'.types.size := h.types.next hσ 0
    have hstart := h.types.reserve.remember key s.types.size
    rw [hnext] at hstart
    exact hstart
  pending_eq := by rw [WalkState.pending_start, WalkState.pending_start, h.pending_eq]

end TwinStates

open TwinStates in
/-- **A call goes the same way in twins.** -/
theorem Walked.twin {r : Resolver} {path : Option String} {depth : Nat} {c : Call}
    {s s₁ s' : WalkState} {out : Except Error c.Out} {σ : Nat → Nat} {n n' : Nat}
    (hσ : Renames σ n n') (h : Walked r path depth c s out s₁) (ht : TwinStates σ n n' s s') :
    ∃ s₁', Walked r path depth c s' (out.map (c.renamed σ)) s₁' ∧ TwinStates σ n n' s₁ s₁' := by
  induction h generalizing s' with
  | deep => exact ⟨s', .deep, ht⟩
  | strayed hv => exact ⟨s', .strayed hv, ht⟩
  | found hv hl => exact ⟨s', .found hv (ht.types.lookup_some hl), ht⟩
  | cyclic hv hl hp =>
      refine ⟨s', .cyclic hv (ht.types.lookup_none hl) ?_, ht⟩
      rw [ht.pending_eq]
      exact hp
  | fault hin hd => exact ⟨s', .fault (ht.enters hin) hd, ht⟩
  | @block depth v w s inner last hin hd =>
      have hnext : σ (s.types.size + inner.length) = s'.types.size + inner.length :=
        ht.types.next hσ _
      have hwalk := @Walked.block r path depth _ _ _ _ _ (ht.enters hin) hd
      have htypes := (ht.types.addBlock hσ inner last).settle hσ r path w
        (s.types.size + inner.length)
      rw [← hnext] at hwalk
      exact ⟨_, hwalk, htypes, ht.pending_eq⟩
  | wrapperFails hin hd _ ih =>
      obtain ⟨s₁', hw, ht₁⟩ := ih (ht.push _)
      exact ⟨_, .wrapperFails (ht.enters hin) hd hw, ht₁.pop _⟩
  | @wrapper depth v w s s₁ item shape id hin hd _ ih =>
      obtain ⟨s₁', hw, ht₁⟩ := ih (ht.push _)
      have hnext : σ s₁.types.size = s₁'.types.size := ht₁.types.next hσ 0
      have hwalk := Walked.wrapper (ht.enters hin) hd hw
      have htypes := (ht₁.types.add hσ shape id).settle hσ r path w s₁.types.size
      rw [← hnext] at hwalk
      refine ⟨_, hwalk, htypes, ?_⟩
      rw [Resolver.pending_settled, Resolver.pending_settled, WalkState.pending_withTypes,
        WalkState.pending_withTypes, ht₁.pending_eq]
  | compositeFails hin hd _ ih =>
      obtain ⟨s₁', hw, ht₁⟩ := ih (ht.start hσ _)
      exact ⟨_, .compositeFails (ht.enters hin) hd hw, ht₁.pop _⟩
  | @composite depth v w s s₁ children shape found hin hd hw ih =>
      obtain ⟨s₁', hw', ht₁⟩ := ih (ht.start hσ _)
      have hnext : σ s.types.size = s'.types.size := ht.types.next hσ 0
      have hlength : found.length = children.length :=
        Resolver.length_of_resolveEach hw.ending_eq
      have hplaced : ∀ i : Nat, i ∈ shape.references → i < found.length := by
        intro i hi
        have hp : (Demand.composite children shape).Placed := hd ▸ r.placed_demand path w
        rw [hlength]
        exact hp i hi
      have hwalk := Walked.composite (ht.enters hin) hd hw'
      have htypes := (ht₁.types.fill hσ ht.types.le_size (Demand.filled shape found)).settle hσ r
        path w s.types.size
      rw [Demand.filled_rename σ hplaced] at htypes
      rw [← hnext] at hwalk
      refine ⟨_, hwalk, htypes, ?_⟩
      rw [Resolver.pending_settled, Resolver.pending_settled, WalkState.pending_withTypes,
        WalkState.pending_withTypes, ht₁.pending_eq]
  | nil => exact ⟨s', .nil, ht⟩
  | headFails _ ih =>
      obtain ⟨s₁', hw, ht₁⟩ := ih ht
      exact ⟨s₁', .headFails hw, ht₁⟩
  | tailFails _ _ ih₁ ih₂ =>
      obtain ⟨s₁', hw₁, ht₁⟩ := ih₁ ht
      obtain ⟨s₂', hw₂, ht₂⟩ := ih₂ ht₁
      exact ⟨s₂', .tailFails hw₁ hw₂, ht₂⟩
  | @cons depth child rest s s₁ s₂ id others _ _ ih₁ ih₂ =>
      obtain ⟨s₁', hw₁, ht₁⟩ := ih₁ ht
      obtain ⟨s₂', hw₂, ht₂⟩ := ih₂ ht₁
      have hwalk : Walked r path depth (.each (child :: rest)) s'
          (.ok ((σ id, Resolver.isConstituent (s₁'.types.get? (σ id)))
            :: Call.renamed σ (.each rest) others)) s₂' := .cons hw₁ hw₂
      rw [ht₁.types.isConstituent_eq id] at hwalk
      exact ⟨s₂', hwalk, ht₂⟩

/-! ## Requests of twins -/

/-- An answer for other slots. -/
def Resolved.renamed (σ : Nat → Nat) (found : Resolved) : Resolved :=
  ⟨σ found.type, found.annotations⟩

/-- **A request is answered the same way in twins.** -/
theorem Answered.twin {r : Resolver} {q : Request} {s s₁ s' : WalkState}
    {out : Except Error Resolved} {σ : Nat → Nat} {n n' : Nat} (hσ : Renames σ n n')
    (h : Answered r q s out s₁) (ht : TwinStates σ n n' s s') :
    ∃ s₁', Answered r q s' (out.map (Resolved.renamed σ)) s₁' ∧ TwinStates σ n n' s₁ s₁' := by
  cases h with
  | component h =>
      obtain ⟨s₁', hw, ht₁⟩ := h.twin hσ ht
      exact ⟨s₁', .component hw, ht₁⟩
  | componentFails h =>
      obtain ⟨s₁', hw, ht₁⟩ := h.twin hσ ht
      exact ⟨s₁', .componentFails hw, ht₁⟩
  | strayed hv => exact ⟨s', .strayed hv, ht⟩
  | shared hv hd h =>
      obtain ⟨s₁', hw, ht₁⟩ := h.twin hσ ht
      exact ⟨s₁', .shared hv hd hw, ht₁⟩
  | sharedFails hv hd h =>
      obtain ⟨s₁', hw, ht₁⟩ := h.twin hσ ht
      exact ⟨s₁', .sharedFails hv hd hw, ht₁⟩
  | fault hv hd => exact ⟨s', .fault hv hd, ht⟩
  | @block path use n name w s inner last hv hd =>
      have hnext : σ (s.types.size + inner.length) = s'.types.size + inner.length :=
        ht.types.next hσ _
      have hans := @Answered.block r path use n name w s' inner last hv hd
      have htypes := (ht.types.addBlock hσ inner last).annotateAll hσ
        (s.types.size + inner.length) (r.nodeAnnotations path w.node w.features)
      rw [← hnext] at hans
      exact ⟨_, hans, htypes, ht.pending_eq⟩
  | @wrapper path use n name w s s₁ item shape id hv hd h =>
      obtain ⟨s₁', hw, ht₁⟩ := h.twin hσ ht
      have hnext : σ s₁.types.size = s₁'.types.size := ht₁.types.next hσ 0
      have hans := Answered.wrapper hv hd hw
      have htypes := (ht₁.types.add hσ shape id).annotateAll hσ s₁.types.size
        (r.nodeAnnotations path w.node w.features)
      rw [← hnext] at hans
      exact ⟨_, hans, htypes, ht₁.pending_eq⟩
  | wrapperFails hv hd h =>
      obtain ⟨s₁', hw, ht₁⟩ := h.twin hσ ht
      exact ⟨s₁', .wrapperFails hv hd hw, ht₁⟩

end ApiTypes
