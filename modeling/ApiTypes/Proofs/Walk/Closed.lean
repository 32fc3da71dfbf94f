import ApiTypes.Proofs.Walk.Growth
import ApiTypes.Proofs.Walk.Request

/-!
# What a store refers to is there

In a closed store every number that a type refers to, and every number that is remembered, is that
of a slot. Walks and requests keep a store closed, however they end, and tell of slots that are
there (`Answered.closed`). Where they succeed, every slot that they take is filled
(`Answered.filled`).
-/

set_option autoImplicit false

namespace ApiTypes

/-! ## Places -/

namespace Target

mutual

theorem lt_of_mem_typesFrom (start : Nat) : ∀ (t : Target) (m : ModelType),
    m ∈ typesFrom start t → ∀ i : Nat, i ∈ m.references → i < start + count t
  | ⟨name, args⟩, m, hm, i, hi => by
      rw [typesFrom, List.mem_append, List.mem_singleton] at hm
      rw [count]
      rcases hm with hm | rfl
      · have := lt_of_mem_allTypesFrom start args m hm i hi
        omega
      · have hplace : i ∈ places start args := hi
        have := (lt_of_mem_places hplace).2
        omega

/-- The types of type arguments refer to types among them. -/
theorem lt_of_mem_allTypesFrom (start : Nat) : ∀ (ts : List Target) (m : ModelType),
    m ∈ allTypesFrom start ts → ∀ i : Nat, i ∈ m.references → i < start + countAll ts
  | [], m, hm, i, hi => by cases hm
  | t :: rest, m, hm, i, hi => by
      rw [allTypesFrom, List.mem_append] at hm
      rw [countAll]
      rcases hm with hm | hm
      · have := lt_of_mem_typesFrom start t m hm i hi
        omega
      · have := lt_of_mem_allTypesFrom _ rest m hm i hi
        omega

end

end Target

/-- The numbers in the types of a demand are places. -/
def Demand.Placed : Demand → Prop
  | fault _ => True
  | block inner last => ∀ t ∈ inner ++ [last], ∀ i : Nat, i ∈ t.references → i < inner.length
  | wrapper _ _ => True
  | composite children shape => ∀ i : Nat, i ∈ shape.references → i < children.length

namespace Resolver

variable (r : Resolver) (path : Option String) (n : SchemaNode) (name : String)

theorem placed_demandOfRule (rule : Rule) : (r.demandOfRule n name rule).Placed := by
  refine demandOfRule_cases (fun _ => trivial) (fun _ _ _ => trivial) fun target t ht i hi => ?_
  rw [Target.length_allTypesFrom]
  rcases List.mem_append.mp ht with ht | ht
  · have := Target.lt_of_mem_allTypesFrom 0 target.args t ht i hi
    omega
  · rw [List.mem_singleton.mp ht] at hi
    have hplace : i ∈ Target.places 0 target.args := hi
    have := (Target.lt_of_mem_places hplace).2
    omega

/-- A type that refers to nothing is a block. -/
theorem placed_single {t : ModelType} (h : t.references = []) :
    (Demand.block [] t).Placed := by
  intro u hu i hi
  rw [List.nil_append, List.mem_singleton] at hu
  rw [hu, h] at hi
  cases hi

theorem placed_demandOfOneOf (label : String) (alternatives : List SchemaNode) :
    (r.demandOfOneOf n name label alternatives).Placed := by
  intro i hi
  have hrange : i ∈ List.range alternatives.length := hi
  rw [length_listedChildren]
  exact List.mem_range.mp hrange

theorem placed_demandOfObject : (r.demandOfObject n name).Placed := by
  intro i hi
  have hvalue : i ∈ (OrderedMap.ofList ((n.properties.map Prod.fst).zip
      (List.range n.properties.length))).values := hi
  obtain ⟨entry, hentry, rfl⟩ := List.mem_map.mp (OrderedMap.mem_values_ofList hvalue)
  rw [length_propertyChildren]
  exact List.mem_range.mp (List.of_mem_zip hentry).2

theorem placed_demandOfType : (r.demandOfType n name).Placed := by
  refine demandOfType_cases (fun _ => trivial) (fun _ => placed_single) (fun _ _ => trivial) ?_
    (fun _ _ => trivial) (placed_demandOfObject r n name)
  intro t ht i hi
  simp only [List.cons_append, List.nil_append, List.mem_cons, List.not_mem_nil, or_false] at ht
  rcases ht with rfl | rfl
  · cases hi
  · have h0 : i = 0 := List.mem_singleton.mp hi
    rw [h0]
    exact Nat.zero_lt_one

theorem placed_demandOfShape : (r.demandOfShape n name).Placed := by
  refine demandOfShape_cases (fun _ i hi => ?_)
    (fun label alternatives _ => placed_demandOfOneOf r n name label alternatives)
    (placed_demandOfType r n name)
  have hrange : i ∈ List.range n.allOf.length := hi
  rw [length_listedChildren]
  exact List.mem_range.mp hrange

theorem placed_demand (v : Visit) : (r.demand path v).Placed := by
  unfold demand
  split
  · exact placed_demandOfRule r v.node v.name _
  · exact placed_demandOfShape r v.node v.name

theorem placed_useDemand {use : Use} {w : Visit} {demand : Demand}
    (h : r.useDemand path use w = some demand) : demand.Placed :=
  useDemand_cases r path (fun _ => trivial) (fun _ => placed_single)
    (placed_demandOfRule r w.node w.name) h

end Resolver

/-! ## Closed stores -/

/-- A store that refers to slots that are there. -/
structure TypeStore.Closed (s : TypeStore) : Prop where
  /-- What is remembered is a slot. -/
  lookup_lt : ∀ (key : MemoKey) (id : Nat), s.lookup key = some id → id < s.size
  /-- What a type refers to is a slot. -/
  references_lt : ∀ (i : Nat) (t : ModelType), s.get? i = some t →
    ∀ j : Nat, j ∈ t.references → j < s.size

namespace TypeStore.Closed

variable {s : TypeStore}

theorem empty : TypeStore.Closed {} where
  lookup_lt key id h := by cases h
  references_lt i t h := by
    have hlt := lt_size_of_get? _ h
    cases hlt

theorem addBlock (h : s.Closed) {inner : List ModelType} {last : ModelType}
    (hplaced : (Demand.block inner last).Placed) : (s.addBlock inner last).2.Closed where
  lookup_lt key id hk := by
    rw [lookup_addBlock] at hk
    rw [size_addBlock]
    exact Nat.lt_add_right _ (h.lookup_lt key id hk)
  references_lt i t hi j hj := by
    rw [get?_addBlock] at hi
    rw [size_addBlock]
    split at hi
    · exact Nat.lt_add_right _ (h.references_lt i t hi j hj)
    · obtain ⟨u, hu, rfl⟩ := Option.map_eq_some_iff.mp hi
      rw [ModelType.references_rename, List.mem_map] at hj
      obtain ⟨place, hplace, rfl⟩ := hj
      have hlt := hplaced u (List.mem_of_getElem? hu) place hplace
      exact Nat.add_lt_add_left (Nat.lt_succ_of_lt hlt) s.size

theorem add (h : s.Closed) {t : ModelType} (ht : ∀ j : Nat, j ∈ t.references → j < s.size) :
    (s.add t).2.Closed where
  lookup_lt key id hk := by
    rw [lookup_add] at hk
    rw [size_add]
    exact Nat.lt_succ_of_lt (h.lookup_lt key id hk)
  references_lt i u hi j hj := by
    rw [get?_add] at hi
    rw [size_add]
    split at hi
    · cases hi
      exact Nat.lt_succ_of_lt (ht j hj)
    · exact Nat.lt_succ_of_lt (h.references_lt i u hi j hj)

theorem fill (h : s.Closed) (id : Nat) {t : ModelType}
    (ht : ∀ j : Nat, j ∈ t.references → j < s.size) : (s.fill id t).Closed where
  lookup_lt key i hk := by
    rw [lookup_fill] at hk
    rw [size_fill]
    exact h.lookup_lt key i hk
  references_lt i u hi j hj := by
    rw [get?_fill] at hi
    rw [size_fill]
    split at hi
    · cases hi
      exact ht j hj
    · exact h.references_lt i u hi j hj

theorem annotateAll (h : s.Closed) (id : Nat) (found : List Annotation) :
    (s.annotateAll id found).Closed where
  lookup_lt key i hk := by
    rw [lookup_annotateAll] at hk
    rw [size_annotateAll]
    exact h.lookup_lt key i hk
  references_lt i u hi j hj := by
    rw [get?_annotateAll] at hi
    rw [size_annotateAll]
    exact h.references_lt i u hi j hj

theorem settle (h : s.Closed) (r : Resolver) (path : Option String) (v : Visit) {id : Nat}
    (hid : id < s.size) : (r.settle path v id s).Closed where
  lookup_lt key i hk := by
    rw [Resolver.lookup_settle] at hk
    rw [Resolver.size_settle]
    split at hk
    · cases hk
      exact hid
    · exact h.lookup_lt key i hk
  references_lt i u hi j hj := by
    rw [Resolver.get?_settle] at hi
    rw [Resolver.size_settle]
    exact h.references_lt i u hi j hj

end TypeStore.Closed

theorem WalkState.closed_start {s : WalkState} (h : s.types.Closed) (key : MemoKey) :
    (s.start key).types.Closed where
  lookup_lt other id hk := by
    rw [types_start, TypeStore.lookup_remember] at hk
    rw [size_start]
    split at hk
    · cases hk
      exact Nat.lt_succ_self _
    · exact Nat.lt_succ_of_lt (h.lookup_lt other id hk)
  references_lt i t hi j hj := by
    rw [types_start, TypeStore.get?_remember, TypeStore.get?_reserve] at hi
    rw [size_start]
    exact Nat.lt_succ_of_lt (h.references_lt i t hi j hj)

/-- A shape that is filled with slots refers to nothing else. -/
theorem Demand.mem_of_mem_filled {shape : ModelType} {found : List (TypeId × Bool)}
    (hplaced : ∀ i : Nat, i ∈ shape.references → i < found.length) {j : Nat}
    (hj : j ∈ (filled shape found).references) : j ∈ found.map Prod.fst := by
  rw [filled, ModelType.references_rename, List.mem_map] at hj
  obtain ⟨place, hplace, rfl⟩ := hj
  have hlt := hplaced place (ModelType.references_keepItems_subset _ shape hplace)
  rw [List.getD_eq_getElem _ _ (by rw [List.length_map]; exact hlt)]
  exact List.getElem_mem _

/-- What a call tells is about slots that are there, and about as many schemas as the call is. -/
def Call.Fits (size : Nat) : (c : Call) → c.Out → Prop
  | one _ => fun id : Nat => id < size
  | each cs => fun found : List (Nat × Bool) =>
      found.length = cs.length ∧ ∀ entry ∈ found, entry.1 < size

namespace Walked

variable {r : Resolver} {path : Option String} {depth : Nat} {c : Call} {s s' : WalkState}
  {out : Except Error c.Out}

/-- **A call keeps the store closed and tells of slots that are there.** -/
theorem closed (h : Walked r path depth c s out s') (hs : s.types.Closed) :
    s'.types.Closed ∧ ∀ told, out = .ok told → c.Fits s'.types.size told := by
  induction h with
  | deep => exact ⟨hs, fun told ht => by cases ht⟩
  | strayed hv => exact ⟨hs, fun told ht => by cases ht⟩
  | found hv hl =>
      refine ⟨hs, fun told ht => ?_⟩
      cases ht
      exact hs.lookup_lt _ _ hl
  | cyclic hv hl hp => exact ⟨hs, fun told ht => by cases ht⟩
  | fault hin hd => exact ⟨hs, fun told ht => by cases ht⟩
  | @block depth v w s inner last hin hd =>
      have hplaced : (Demand.block inner last).Placed := hd ▸ r.placed_demand path w
      have hlt : s.types.size + inner.length < (s.types.addBlock inner last).2.size := by
        rw [TypeStore.size_addBlock]
        omega
      refine ⟨(hs.addBlock hplaced).settle r path w hlt, fun told ht => ?_⟩
      cases ht
      rw [WalkState.types_withTypes, Resolver.size_settle]
      exact hlt
  | wrapperFails hin hd _ ih =>
      exact ⟨(ih hs).1, fun told ht => by cases ht⟩
  | @wrapper depth v w s s₁ item shape id hin hd _ ih =>
      obtain ⟨hs₁, hfits⟩ := ih hs
      have hid : id < s₁.types.size := hfits id rfl
      have hadd : (s₁.types.add (shape.rename fun _ => id)).2.Closed := by
        refine hs₁.add fun j hj => ?_
        rw [ModelType.references_rename, List.mem_map] at hj
        obtain ⟨_, _, rfl⟩ := hj
        exact hid
      have hlt : s₁.types.size < (s₁.types.add (shape.rename fun _ => id)).2.size := by
        rw [TypeStore.size_add]
        exact Nat.lt_succ_self _
      refine ⟨hadd.settle r path w hlt, fun told ht => ?_⟩
      cases ht
      rw [Resolver.types_settled, Resolver.size_settle]
      exact hlt
  | @compositeFails depth v w s s₁ children shape e hin hd _ ih =>
      exact ⟨(ih (WalkState.closed_start hs _)).1, fun told ht => by cases ht⟩
  | @composite depth v w s s₁ children shape found hin hd hw ih =>
      obtain ⟨hs₁, hfits⟩ := ih (WalkState.closed_start hs _)
      obtain ⟨hlength, hids⟩ := hfits found rfl
      have hplaced : ∀ i : Nat, i ∈ shape.references → i < found.length := by
        intro i hi
        have hdemand : (Demand.composite children shape).Placed := hd ▸ r.placed_demand path w
        rw [hlength]
        exact hdemand i hi
      have hfill : (s₁.types.fill s.types.size (Demand.filled shape found)).Closed := by
        refine hs₁.fill s.types.size fun j hj => ?_
        obtain ⟨entry, hentry, rfl⟩ := List.mem_map.mp (Demand.mem_of_mem_filled hplaced hj)
        exact hids entry hentry
      have hlt : s.types.size < (s₁.types.fill s.types.size (Demand.filled shape found)).size := by
        have hsize := hw.grows.size_le
        rw [WalkState.size_start] at hsize
        rw [TypeStore.size_fill]
        omega
      refine ⟨hfill.settle r path w hlt, fun told ht => ?_⟩
      cases ht
      rw [Resolver.types_settled, Resolver.size_settle]
      exact hlt
  | nil =>
      refine ⟨hs, fun told ht => ?_⟩
      cases ht
      exact ⟨rfl, fun entry hentry => by cases hentry⟩
  | headFails _ ih => exact ⟨(ih hs).1, fun told ht => by cases ht⟩
  | tailFails _ _ ih₁ ih₂ => exact ⟨(ih₂ (ih₁ hs).1).1, fun told ht => by cases ht⟩
  | @cons depth c rest s s₁ s₂ id others _ hrest ih₁ ih₂ =>
      obtain ⟨hs₁, hhead⟩ := ih₁ hs
      obtain ⟨hs₂, htail⟩ := ih₂ hs₁
      refine ⟨hs₂, fun told ht => ?_⟩
      cases ht
      obtain ⟨hlength, hids⟩ := htail others rfl
      refine ⟨by rw [List.length_cons, List.length_cons, hlength], fun entry hentry => ?_⟩
      rcases List.mem_cons.mp hentry with rfl | hmem
      · exact Nat.lt_of_lt_of_le (hhead id rfl) hrest.grows.size_le
      · exact hids entry hmem

/-- **A call that succeeds fills every slot that it takes.** -/
theorem filled (h : Walked r path depth c s out s') {told : c.Out} (hok : out = .ok told)
    {i : Nat} (hle : s.types.size ≤ i) (hlt : i < s'.types.size) :
    (s'.types.get? i).isSome = true := by
  induction h with
  | deep => cases hok
  | strayed hv => cases hok
  | found hv hl => omega
  | cyclic hv hl hp => cases hok
  | fault hin hd => cases hok
  | @block depth v w s inner last hin hd =>
      rw [WalkState.types_withTypes, Resolver.size_settle, TypeStore.size_addBlock] at hlt
      rw [WalkState.types_withTypes, Resolver.get?_settle, TypeStore.get?_addBlock,
        if_neg (Nat.not_lt.mpr hle)]
      have hlen : i - s.types.size < (inner ++ [last]).length := by
        rw [List.length_append, List.length_singleton]
        omega
      rw [List.getElem?_eq_getElem hlen]
      rfl
  | wrapperFails hin hd _ ih => cases hok
  | @wrapper depth v w s s₁ item shape id hin hd _ ih =>
      rw [Resolver.types_settled, Resolver.size_settle, WalkState.types_withTypes,
        TypeStore.size_add] at hlt
      rw [Resolver.types_settled, Resolver.get?_settle, WalkState.types_withTypes,
        TypeStore.get?_add]
      split
      · rfl
      · exact ih rfl hle (by omega)
  | compositeFails hin hd _ ih => cases hok
  | @composite depth v w s s₁ children shape found hin hd _ ih =>
      rw [Resolver.types_settled, Resolver.size_settle, WalkState.types_withTypes,
        TypeStore.size_fill] at hlt
      rw [Resolver.types_settled, Resolver.get?_settle, WalkState.types_withTypes,
        TypeStore.get?_fill]
      split
      · rfl
      · refine ih rfl ?_ hlt
        rw [WalkState.size_start]
        omega
  | nil => omega
  | headFails _ ih => cases hok
  | tailFails _ _ ih₁ ih₂ => cases hok
  | @cons depth c rest s s₁ s₂ id others _ hrest ih₁ ih₂ =>
      by_cases hi : i < s₁.types.size
      · rw [hrest.grows.get?_eq i hi]
        exact ih₁ rfl hle hi
      · exact ih₂ rfl (Nat.le_of_not_lt hi) hlt

end Walked

/-! ## Requests -/

namespace Resolver

variable (r : Resolver) (path : Option String) (v : Visit) (id : Nat) (s : WalkState)

@[simp] theorem types_owned :
    (r.owned path v id s).types
      = s.types.annotateAll id (r.nodeAnnotations path v.node v.features) := rfl

end Resolver

namespace Answered

variable {r : Resolver} {q : Request} {s s' : WalkState} {out : Except Error Resolved}

/-- **What is being resolved is the same before and after a request.** -/
theorem pending_eq (h : Answered r q s out s') : s'.pending = s.pending := by
  cases h with
  | component h => exact h.pending_eq
  | componentFails h => exact h.pending_eq
  | strayed hv => rfl
  | shared hv hd h => exact h.pending_eq
  | sharedFails hv hd h => exact h.pending_eq
  | fault hv hd => rfl
  | block hv hd => rfl
  | wrapper hv hd h => exact h.pending_eq
  | wrapperFails hv hd h => exact h.pending_eq

/-- **A request only extends the store.** -/
theorem grows (h : Answered r q s out s') : Grows s.types s'.types := by
  cases h with
  | component h => exact h.grows
  | componentFails h => exact h.grows
  | strayed hv => exact Grows.refl _
  | shared hv hd h => exact h.grows
  | sharedFails hv hd h => exact h.grows
  | fault hv hd => exact Grows.refl _
  | block hv hd =>
      exact ((Grows.refl s.types).addAll _).annotateAll (Nat.le_add_right _ _) _
  | wrapper hv hd h => exact (h.grows.add _).annotateAll h.grows.size_le _
  | wrapperFails hv hd h => exact h.grows

/-- **A request keeps the store closed and tells of a slot that is there.** -/
theorem closed (h : Answered r q s out s') (hs : s.types.Closed) :
    s'.types.Closed ∧ ∀ told, out = .ok told → (told.type : Nat) < s'.types.size := by
  cases h with
  | component h =>
      obtain ⟨hs', hfits⟩ := h.closed hs
      refine ⟨hs', fun told ht => ?_⟩
      cases ht
      exact hfits _ rfl
  | componentFails h => exact ⟨(h.closed hs).1, fun told ht => by cases ht⟩
  | strayed hv => exact ⟨hs, fun told ht => by cases ht⟩
  | shared hv hd h =>
      obtain ⟨hs', hfits⟩ := h.closed hs
      refine ⟨hs', fun told ht => ?_⟩
      cases ht
      exact hfits _ rfl
  | sharedFails hv hd h => exact ⟨(h.closed hs).1, fun told ht => by cases ht⟩
  | fault hv hd => exact ⟨hs, fun told ht => by cases ht⟩
  | @block path use n name w s inner last hv hd =>
      have hplaced : (Demand.block inner last).Placed := r.placed_useDemand path hd
      refine ⟨(hs.addBlock hplaced).annotateAll _ _, fun told ht => ?_⟩
      cases ht
      rw [Resolver.types_owned, TypeStore.size_annotateAll, WalkState.types_withTypes,
        TypeStore.size_addBlock]
      show s.types.size + inner.length < _
      omega
  | @wrapper path use n name w s s₁ item shape id hv hd h =>
      obtain ⟨hs₁, hfits⟩ := h.closed hs
      have hid : id < s₁.types.size := hfits id rfl
      have hadd : (s₁.types.add (shape.rename fun _ => id)).2.Closed := by
        refine hs₁.add fun j hj => ?_
        rw [ModelType.references_rename, List.mem_map] at hj
        obtain ⟨_, _, rfl⟩ := hj
        exact hid
      refine ⟨hadd.annotateAll _ _, fun told ht => ?_⟩
      cases ht
      rw [Resolver.types_owned, TypeStore.size_annotateAll, WalkState.types_withTypes,
        TypeStore.size_add]
      exact Nat.lt_succ_self _
  | wrapperFails hv hd h => exact ⟨(h.closed hs).1, fun told ht => by cases ht⟩

/-- **A request that succeeds fills every slot that it takes.** -/
theorem filled (h : Answered r q s out s') {told : Resolved} (hok : out = .ok told) {i : Nat}
    (hle : s.types.size ≤ i) (hlt : i < s'.types.size) : (s'.types.get? i).isSome = true := by
  cases h with
  | component h => exact h.filled rfl hle hlt
  | componentFails h => cases hok
  | strayed hv => cases hok
  | shared hv hd h => exact h.filled rfl hle hlt
  | sharedFails hv hd h => cases hok
  | fault hv hd => cases hok
  | @block path use n name w s inner last hv hd =>
      rw [Resolver.types_owned, TypeStore.size_annotateAll, WalkState.types_withTypes,
        TypeStore.size_addBlock] at hlt
      rw [Resolver.types_owned, TypeStore.get?_annotateAll, WalkState.types_withTypes,
        TypeStore.get?_addBlock, if_neg (Nat.not_lt.mpr hle)]
      have hlen : i - s.types.size < (inner ++ [last]).length := by
        rw [List.length_append, List.length_singleton]
        omega
      rw [List.getElem?_eq_getElem hlen]
      rfl
  | @wrapper path use n name w s s₁ item shape id hv hd h =>
      rw [Resolver.types_owned, TypeStore.size_annotateAll, WalkState.types_withTypes,
        TypeStore.size_add] at hlt
      rw [Resolver.types_owned, TypeStore.get?_annotateAll, WalkState.types_withTypes,
        TypeStore.get?_add]
      split
      · rfl
      · exact h.filled rfl hle (by omega)
  | wrapperFails hv hd h => cases hok

end Answered

end ApiTypes
