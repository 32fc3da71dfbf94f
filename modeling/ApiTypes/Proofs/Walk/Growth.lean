import ApiTypes.Proofs.Walk.Run

/-!
# The walk only extends the store

Whatever a call ends with, it changes nothing that was there before: slots keep their type, or
stay reserved, and their annotations, and what was remembered stays remembered
(`Walked.grows`). What a call remembers are slots that it took itself. The schemas that are being
resolved are the same before and after (`Walked.pending_eq`), and none of them that may not be
found becomes findable in between (`Walked.lookup_of_mem_pending`).
-/

set_option autoImplicit false

namespace ApiTypes

/-- A store has everything that another one has, unchanged, and what it remembers besides are
slots of its own. -/
structure Grows (s s' : TypeStore) : Prop where
  /-- No slot is lost. -/
  size_le : s.size ≤ s'.size
  /-- A slot keeps its type or stays reserved. -/
  get?_eq : ∀ i : Nat, i < s.size → s'.get? i = s.get? i
  /-- A slot keeps its annotations. -/
  annotations_eq : ∀ i : Nat, i < s.size → s'.annotations i = s.annotations i
  /-- What was remembered stays remembered. -/
  lookup_eq : ∀ (key : MemoKey) (id : Nat), s.lookup key = some id → s'.lookup key = some id
  /-- What is remembered besides are new slots. -/
  lookup_new : ∀ (key : MemoKey) (id : Nat), s'.lookup key = some id →
    s.lookup key = some id ∨ (s.size ≤ id ∧ id < s'.size)

namespace Grows

variable {s s' s'' : TypeStore}

theorem refl (s : TypeStore) : Grows s s where
  size_le := Nat.le_refl _
  get?_eq _ _ := rfl
  annotations_eq _ _ := rfl
  lookup_eq _ _ h := h
  lookup_new _ _ h := Or.inl h

theorem trans (h : Grows s s') (h' : Grows s' s'') : Grows s s'' where
  size_le := Nat.le_trans h.size_le h'.size_le
  get?_eq i hi := (h'.get?_eq i (Nat.lt_of_lt_of_le hi h.size_le)).trans (h.get?_eq i hi)
  annotations_eq i hi :=
    (h'.annotations_eq i (Nat.lt_of_lt_of_le hi h.size_le)).trans (h.annotations_eq i hi)
  lookup_eq key id hk := h'.lookup_eq key id (h.lookup_eq key id hk)
  lookup_new key id hk := by
    rcases h'.lookup_new key id hk with hk' | ⟨hle, hlt⟩
    · rcases h.lookup_new key id hk' with hs | ⟨hle, hlt⟩
      · exact Or.inl hs
      · exact Or.inr ⟨hle, Nat.lt_of_lt_of_le hlt h'.size_le⟩
    · exact Or.inr ⟨Nat.le_trans h.size_le hle, hlt⟩

/-- A type that is there stays there. -/
theorem get?_some (h : Grows s s') {i : Nat} {t : ModelType} (hi : s.get? i = some t) :
    s'.get? i = some t := by
  rw [h.get?_eq i (s.lt_size_of_get? hi)]
  exact hi

theorem addAll (h : Grows s s') (ts : List ModelType) : Grows s (s'.addAll ts) where
  size_le := by
    rw [TypeStore.size_addAll]
    exact Nat.le_trans h.size_le (Nat.le_add_right _ _)
  get?_eq i hi := by
    rw [TypeStore.get?_addAll, if_pos (Nat.lt_of_lt_of_le hi h.size_le)]
    exact h.get?_eq i hi
  annotations_eq i hi := by
    rw [TypeStore.annotations_addAll]
    exact h.annotations_eq i hi
  lookup_eq key id hk := by
    rw [TypeStore.lookup_addAll]
    exact h.lookup_eq key id hk
  lookup_new key id hk := by
    rw [TypeStore.lookup_addAll] at hk
    rw [TypeStore.size_addAll]
    exact (h.lookup_new key id hk).imp (fun hs => hs) fun ⟨hle, hlt⟩ => ⟨hle, Nat.lt_add_right _ hlt⟩

theorem add (h : Grows s s') (t : ModelType) : Grows s (s'.add t).2 :=
  h.addAll [t]

theorem reserve (h : Grows s s') : Grows s s'.reserve.2 where
  size_le := by
    rw [TypeStore.size_reserve]
    exact Nat.le_succ_of_le h.size_le
  get?_eq i hi := by
    rw [TypeStore.get?_reserve]
    exact h.get?_eq i hi
  annotations_eq i hi := by
    rw [TypeStore.annotations_reserve]
    exact h.annotations_eq i hi
  lookup_eq := h.lookup_eq
  lookup_new key id hk := by
    rw [TypeStore.size_reserve]
    exact (h.lookup_new key id hk).imp (fun hs => hs) fun ⟨hle, hlt⟩ => ⟨hle, Nat.lt_succ_of_lt hlt⟩

/-- Filling a new slot changes nothing old. -/
theorem fill (h : Grows s s') {id : Nat} (hid : s.size ≤ id) (t : ModelType) :
    Grows s (s'.fill id t) where
  size_le := by
    rw [TypeStore.size_fill]
    exact h.size_le
  get?_eq i hi := by
    have hne : ¬ (i = id ∧ i < s'.size) := fun e => by omega
    rw [TypeStore.get?_fill, if_neg hne]
    exact h.get?_eq i hi
  annotations_eq i hi := by
    rw [TypeStore.annotations_fill]
    exact h.annotations_eq i hi
  lookup_eq := h.lookup_eq
  lookup_new key id hk := by
    rw [TypeStore.size_fill]
    exact h.lookup_new key id hk

/-- Remembering a new slot for a schema that was not remembered changes nothing old. -/
theorem remember (h : Grows s s') {key : MemoKey} (hkey : s.lookup key = none) {id : Nat}
    (hid : s.size ≤ id) (hlt : id < s'.size) : Grows s (s'.remember key id) where
  size_le := h.size_le
  get?_eq := h.get?_eq
  annotations_eq := h.annotations_eq
  lookup_eq other i hk := by
    have hne : ¬ other = key := by
      rintro rfl
      rw [hkey] at hk
      cases hk
    rw [TypeStore.lookup_remember, if_neg hne]
    exact h.lookup_eq other i hk
  lookup_new other i hk := by
    rw [TypeStore.lookup_remember] at hk
    split at hk
    · cases hk
      exact Or.inr ⟨hid, hlt⟩
    · exact h.lookup_new other i hk

/-- Annotating a new slot changes nothing old. -/
theorem annotateAll (h : Grows s s') {id : Nat} (hid : s.size ≤ id) (found : List Annotation) :
    Grows s (s'.annotateAll id found) where
  size_le := by
    rw [TypeStore.size_annotateAll]
    exact h.size_le
  get?_eq i hi := by
    rw [TypeStore.get?_annotateAll]
    exact h.get?_eq i hi
  annotations_eq i hi := by
    have hne : ¬ (i = id ∧ i < s'.size) := fun e => by omega
    rw [TypeStore.annotations_annotateAll, if_neg hne]
    exact h.annotations_eq i hi
  lookup_eq key i hk := by
    rw [TypeStore.lookup_annotateAll]
    exact h.lookup_eq key i hk
  lookup_new key i hk := by
    rw [TypeStore.lookup_annotateAll] at hk
    rw [TypeStore.size_annotateAll]
    exact h.lookup_new key i hk

/-- Settling a schema on a new slot changes nothing old. -/
theorem settle (h : Grows s s') {r : Resolver} {path : Option String} {v : Visit}
    (hkey : s.lookup (r.keyOf path v) = none) {id : Nat} (hid : s.size ≤ id)
    (hlt : id < s'.size) : Grows s (r.settle path v id s') :=
  (h.remember hkey hid hlt).annotateAll hid _

end Grows

namespace Resolver

variable (r : Resolver) (path : Option String) (v : Visit) (id : Nat) (s : TypeStore)

@[simp] theorem size_settle : (r.settle path v id s).size = s.size := by
  rw [settle, TypeStore.size_annotateAll, TypeStore.size_remember]

@[simp] theorem get?_settle (i : Nat) : (r.settle path v id s).get? i = s.get? i := by
  rw [settle, TypeStore.get?_annotateAll, TypeStore.get?_remember]

theorem lookup_settle (key : MemoKey) :
    (r.settle path v id s).lookup key
      = if key = r.keyOf path v then some id else s.lookup key := by
  rw [settle, TypeStore.lookup_annotateAll, TypeStore.lookup_remember]

@[simp] theorem types_settled (s : WalkState) :
    (r.settled path v id s).types = r.settle path v id s.types := rfl

@[simp] theorem pending_settled (s : WalkState) :
    (r.settled path v id s).pending = s.pending.erase (r.keyOf path v) := rfl

end Resolver

theorem Resolver.annotations_settle_of_ne {r : Resolver} {path : Option String} {v : Visit}
    {id i : Nat} {s : TypeStore} (h : ¬ i = id) :
    (r.settle path v id s).annotations i = s.annotations i := by
  have hne : ¬ (i = id ∧ i < (s.remember (r.keyOf path v) id).size) := fun both => h both.1
  rw [settle, TypeStore.annotations_annotateAll, if_neg hne, TypeStore.annotations_remember]

theorem TypeStore.size_addBlock (s : TypeStore) (inner : List ModelType) (last : ModelType) :
    (s.addBlock inner last).2.size = s.size + (inner.length + 1) := by
  rw [addBlock, size_addAll, List.length_map, List.length_append]
  rfl

theorem TypeStore.lookup_addBlock (s : TypeStore) (inner : List ModelType) (last : ModelType)
    (key : MemoKey) : (s.addBlock inner last).2.lookup key = s.lookup key := by
  rw [addBlock, lookup_addAll]

/-- A type of a block refers to the block by the places in it. -/
theorem TypeStore.get?_addBlock (s : TypeStore) (inner : List ModelType) (last : ModelType)
    (i : Nat) :
    (s.addBlock inner last).2.get? i =
      if i < s.size then s.get? i
      else ((inner ++ [last])[i - s.size]?).map (·.rename (s.size + ·)) := by
  rw [addBlock, get?_addAll, List.getElem?_map]

namespace WalkState

/-- Reserving a slot for a schema that was not remembered changes nothing old. -/
theorem grows_start (s : WalkState) {key : MemoKey} (hkey : s.types.lookup key = none) :
    Grows s.types (s.start key).types := by
  have hreserve : Grows s.types s.types.reserve.2 := (Grows.refl s.types).reserve
  refine hreserve.remember hkey (Nat.le_refl _) ?_
  rw [TypeStore.size_reserve]
  exact Nat.lt_succ_self _

theorem lookup_start (s : WalkState) (key : MemoKey) :
    (s.start key).types.lookup key = some s.types.size := by
  rw [types_start, TypeStore.lookup_remember, if_pos rfl]

theorem size_start (s : WalkState) (key : MemoKey) :
    (s.start key).types.size = s.types.size + 1 := by
  rw [types_start, TypeStore.size_remember, TypeStore.size_reserve]

end WalkState

namespace Walked

variable {r : Resolver} {path : Option String} {depth : Nat} {c : Call} {s s' : WalkState}
  {out : Except Error c.Out}

/-- **What is being resolved is the same before and after a call.** -/
theorem pending_eq (h : Walked r path depth c s out s') : s'.pending = s.pending := by
  induction h with
  | deep => rfl
  | strayed hv => rfl
  | found hv hl => rfl
  | cyclic hv hl hp => rfl
  | fault hin hd => rfl
  | block hin hd => rfl
  | wrapperFails hin hd _ ih => rw [WalkState.pending_pop, ih, WalkState.pending_push,
      List.erase_cons_head]
  | wrapper hin hd _ ih => rw [Resolver.pending_settled, WalkState.pending_withTypes, ih,
      WalkState.pending_push, List.erase_cons_head]
  | compositeFails hin hd _ ih => rw [WalkState.pending_pop, ih, WalkState.pending_start,
      List.erase_cons_head]
  | composite hin hd _ ih => rw [Resolver.pending_settled, WalkState.pending_withTypes, ih,
      WalkState.pending_start, List.erase_cons_head]
  | nil => rfl
  | headFails _ ih => exact ih
  | tailFails _ _ ih₁ ih₂ => exact ih₂.trans ih₁
  | cons _ _ ih₁ ih₂ => exact ih₂.trans ih₁

/-- A schema that is being resolved and may not be found does not become findable. -/
theorem lookup_of_mem_pending (h : Walked r path depth c s out s') {key : MemoKey}
    (hmem : key ∈ s.pending) (hkey : s.types.lookup key = none) :
    s'.types.lookup key = none := by
  induction h with
  | deep => exact hkey
  | strayed hv => exact hkey
  | found hv hl => exact hkey
  | cyclic hv hl hp => exact hkey
  | fault hin hd => exact hkey
  | @block depth v w s inner last hin hd =>
      have hne : ¬ key = r.keyOf path w := fun e => hin.notMem (e ▸ hmem)
      rw [WalkState.types_withTypes, Resolver.lookup_settle, if_neg hne,
        TypeStore.lookup_addBlock]
      exact hkey
  | wrapperFails hin hd _ ih => exact ih (List.mem_cons_of_mem _ hmem) hkey
  | @wrapper depth v w s s₁ item shape id hin hd _ ih =>
      have hne : ¬ key = r.keyOf path w := fun e => hin.notMem (e ▸ hmem)
      rw [Resolver.types_settled, Resolver.lookup_settle, if_neg hne]
      exact ih (List.mem_cons_of_mem _ hmem) hkey
  | @compositeFails depth v w s s₁ children shape e hin hd _ ih =>
      have hne : ¬ key = r.keyOf path w := fun e => hin.notMem (e ▸ hmem)
      refine ih (List.mem_cons_of_mem _ hmem) ?_
      rw [WalkState.types_start, TypeStore.lookup_remember, if_neg hne]
      exact hkey
  | @composite depth v w s s₁ children shape found hin hd _ ih =>
      have hne : ¬ key = r.keyOf path w := fun e => hin.notMem (e ▸ hmem)
      rw [Resolver.types_settled, Resolver.lookup_settle, if_neg hne]
      refine ih (List.mem_cons_of_mem _ hmem) ?_
      rw [WalkState.types_start, TypeStore.lookup_remember, if_neg hne]
      exact hkey
  | nil => exact hkey
  | headFails _ ih => exact ih hmem hkey
  | tailFails h₁ _ ih₁ ih₂ => exact ih₂ (h₁.pending_eq ▸ hmem) (ih₁ hmem hkey)
  | cons h₁ _ ih₁ ih₂ => exact ih₂ (h₁.pending_eq ▸ hmem) (ih₁ hmem hkey)

/-- **A call only extends the store.** -/
theorem grows (h : Walked r path depth c s out s') : Grows s.types s'.types := by
  induction h with
  | deep => exact Grows.refl _
  | strayed hv => exact Grows.refl _
  | found hv hl => exact Grows.refl _
  | cyclic hv hl hp => exact Grows.refl _
  | fault hin hd => exact Grows.refl _
  | @block depth v w s inner last hin hd =>
      have hadd : Grows s.types (s.types.addBlock inner last).2 :=
        (Grows.refl s.types).addAll _
      refine hadd.settle hin.lookup_eq (Nat.le_add_right _ _) ?_
      rw [TypeStore.size_addBlock]
      omega
  | wrapperFails hin hd _ ih => exact ih
  | @wrapper depth v w s s₁ item shape id hin hd _ ih =>
      refine (ih.add _).settle hin.lookup_eq ih.size_le ?_
      rw [TypeStore.size_add]
      exact Nat.lt_succ_self _
  | @compositeFails depth v w s s₁ children shape e hin hd _ ih =>
      exact (s.grows_start hin.lookup_eq).trans ih
  | @composite depth v w s s₁ children shape found hin hd _ ih =>
      have hs := (s.grows_start hin.lookup_eq).trans ih
      refine (hs.fill (Nat.le_refl _) _).settle hin.lookup_eq (Nat.le_refl _) ?_
      have hlt := ih.size_le
      rw [WalkState.size_start] at hlt
      rw [TypeStore.size_fill]
      omega
  | nil => exact Grows.refl _
  | headFails _ ih => exact ih
  | tailFails _ _ ih₁ ih₂ => exact ih₁.trans ih₂
  | cons _ _ ih₁ ih₂ => exact ih₁.trans ih₂

/-- **A slot that is reserved stays so until it is filled.** Calls below the schema that it is for
find it and leave it as it is. -/
theorem reserved {key : MemoKey} {s₁ : WalkState} (h : Walked r path depth c (s.start key) out s₁) :
    s₁.types.lookup key = some s.types.size ∧ s₁.types.get? s.types.size = none ∧
      s.types.size < s₁.types.size := by
  have hlt : s.types.size < (s.start key).types.size := by
    rw [WalkState.size_start]
    exact Nat.lt_succ_self _
  refine ⟨h.grows.lookup_eq _ _ (s.lookup_start key), ?_, Nat.lt_of_lt_of_le hlt h.grows.size_le⟩
  rw [h.grows.get?_eq _ hlt, WalkState.types_start, TypeStore.get?_remember,
    TypeStore.get?_reserve]
  exact TypeStore.get?_eq_none_of_size_le _ (Nat.le_refl _)

end Walked

end ApiTypes
