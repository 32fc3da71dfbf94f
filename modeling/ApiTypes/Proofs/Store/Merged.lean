import ApiTypes.Proofs.Store.Appending
import ApiTypes.Proofs.Store.Bounds

/-!
# The properties of composed types

A composed type includes its constituents, and what they include (`TypeStore.included`). Where
nothing includes itself, the walk for properties comes to the included slots in this order, to each
of them once (`TypeStore.Ends.visitBy_eq`). So the properties of a composed type are those of the
objects that it includes, appended in the order in which they come first
(`TypeStore.Ends.properties_eq`).

This is not always what appending the properties of the constituents gives. The names are the same,
in the same order. But an object that is included a second time is not appended again, and so a name
keeps the value of an object in between, if there is one (`TypeStore.properties_of_allOf`).
-/

set_option autoImplicit false

universe u

namespace ApiTypes

namespace TypeStore

variable {s : TypeStore}

/-! ## What a slot includes -/

/-- The properties that the type in a slot has of its own. -/
def ownProperties (s : TypeStore) (id : Nat) : OrderedMap TypeId :=
  match s.get? id with
  | some (.object _ _ properties _ _ _) => properties
  | _ => .empty

/-- What a slot includes, told from what its constituents include. -/
def includedFrom (s : TypeStore) (told : Nat → List Nat) (id : Nat) : List Nat :=
  id :: (s.listed ModelType.constituents id).flatMap told

/-- What a slot includes, up to a depth of constituents. -/
def includedWithin (s : TypeStore) : Nat → Nat → List Nat
  | 0, _ => []
  | depth + 1, id => s.includedFrom (s.includedWithin depth) id

/-- What a slot includes: itself, and then what its constituents include, one after the other. What
is included several times comes several times. -/
def included (s : TypeStore) (id : Nat) : List Nat := s.includedWithin (s.size + 1) id

theorem mem_listed_constituents {i j : Nat} :
    j ∈ s.listed ModelType.constituents i ↔ s.HasConstituent i j :=
  mem_listed

theorem alongConstituents_includedFrom : s.AlongConstituents s.includedFrom := by
  intro told told' id h
  unfold includedFrom
  rw [List.flatMap_congr fun j hj => h j (mem_listed_constituents.mp hj)]

/-- A slot includes itself and what its constituents include. -/
theorem Ends.included_eq {i : Nat} (h : s.Ends i) :
    s.included i = i :: (s.listed ModelType.constituents i).flatMap s.included :=
  h.within_eq_step alongConstituents_includedFrom fun _ _ => rfl

/-- A slot includes what can be reached from it through constituents. -/
theorem Ends.mem_included {i : Nat} (h : s.Ends i) {k : Nat} :
    k ∈ s.included i ↔ Relation.ReflTransGen s.HasConstituent i k := by
  induction h with
  | intro i hacc ih =>
      rw [Ends.included_eq (Acc.intro i hacc), List.mem_cons, List.mem_flatMap]
      constructor
      · rintro (rfl | ⟨j, hj, hk⟩)
        · exact .refl
        · have hij := mem_listed_constituents.mp hj
          exact .head hij ((ih j hij).mp hk)
      · intro hik
        rcases Relation.ReflTransGen.cases_head hik with rfl | ⟨j, hij, hjk⟩
        · exact Or.inl rfl
        · exact Or.inr ⟨j, mem_listed_constituents.mpr hij, (ih j hij).mpr hjk⟩

/-! ## The order of the walk -/

/-- The slots of a list that were not visited, each of them once. -/
def fresh (visited l : List Nat) : List Nat :=
  (l.filter fun k => !visited.contains k).eraseDups

theorem mem_fresh {visited l : List Nat} {k : Nat} :
    k ∈ fresh visited l ↔ k ∈ l ∧ k ∉ visited := by
  rw [fresh, List.mem_eraseDups, List.mem_filter]
  simp

theorem fresh_eq_nil {visited l : List Nat} (h : l ⊆ visited) : fresh visited l = [] := by
  have hnil : (l.filter fun k => !visited.contains k) = [] :=
    List.filter_eq_nil_iff.mpr fun k hk => by simpa using h hk
  rw [fresh, hnil, List.eraseDups_nil]

/-- A slot that was not visited comes first, and is visited then. -/
theorem fresh_cons {visited l : List Nat} {i : Nat} (hi : i ∉ visited) :
    fresh visited (i :: l) = i :: fresh (i :: visited) l := by
  rw [fresh, List.filter_cons_of_pos (by simpa using hi), List.eraseDups_cons, fresh,
    List.filter_filter]
  congr 2
  refine List.filter_congr fun k _ => ?_
  by_cases hk : k = i
  · simp [hk]
  · simp [hk]

/-- What the first list has is visited before the second one. -/
theorem fresh_append (visited l l' : List Nat) :
    fresh visited (l ++ l')
      = fresh visited l ++ fresh ((fresh visited l).reverse ++ visited) l' := by
  rw [fresh, List.filter_append, List.eraseDups_append]
  congr 1
  rw [fresh, List.removeAll, List.filter_filter]
  congr 1
  refine List.filter_congr fun k _ => ?_
  have hmem : k ∈ fresh visited l ↔ k ∈ l ∧ k ∉ visited := mem_fresh
  by_cases hk : k ∈ visited
  · simp [hk]
  · by_cases hl : k ∈ l
    · simp [hk, hl, hmem]
    · simp [hk, hl, hmem]

/-- What was visited below a slot was visited together with all that it includes. -/
def Settled (s : TypeStore) (visited : List Nat) (i : Nat) : Prop :=
  ∀ k l, Relation.ReflTransGen s.HasConstituent i k → k ∈ visited →
    Relation.ReflTransGen s.HasConstituent k l → l ∈ visited

section Order

variable {α : Type u} (tell : Nat → α → α)

/-- The walk comes to what slots include, if it does so for each of them. -/
theorem foldl_visitBy_eq {depth size : Nat} (js : List Nat)
    (hends : ∀ j ∈ js, s.Ends j)
    (hvisit : ∀ j ∈ js, ∀ (visited : List Nat) (out : α), unvisited size visited < depth →
      s.Settled visited j →
      visitBy (s.listed ModelType.constituents) tell depth j (visited, out)
        = ((fresh visited (s.included j)).reverse ++ visited,
            (fresh visited (s.included j)).foldl (fun out k => tell k out) out)) :
    ∀ (visited : List Nat) (out : α), unvisited size visited < depth →
      (∀ j ∈ js, s.Settled visited j) →
      js.foldl (fun found j => visitBy (s.listed ModelType.constituents) tell depth j found)
          (visited, out)
        = ((fresh visited (js.flatMap s.included)).reverse ++ visited,
            (fresh visited (js.flatMap s.included)).foldl (fun out k => tell k out) out) := by
  induction js with
  | nil =>
      intro visited out _ _
      rfl
  | cons j rest ih =>
      intro visited out hlt hsettled
      have hmem : ∀ k, k ∈ (fresh visited (s.included j)).reverse ++ visited ↔
          k ∈ visited ∨ Relation.ReflTransGen s.HasConstituent j k := by
        intro k
        rw [List.mem_append, List.mem_reverse, mem_fresh,
          (hends j List.mem_cons_self).mem_included]
        tauto
      rw [List.foldl_cons, hvisit j List.mem_cons_self visited out hlt (hsettled j List.mem_cons_self),
        List.flatMap_cons, fresh_append, List.foldl_append, List.reverse_append, List.append_assoc]
      refine ih (fun k hk => hends k (List.mem_cons_of_mem j hk))
        (fun k hk => hvisit k (List.mem_cons_of_mem j hk)) _ _ ?_ ?_
      · exact Nat.lt_of_le_of_lt (unvisited_mono size fun k hk => (hmem k).mpr (Or.inl hk)) hlt
      · -- What is visited now is settled: it was so before, or it is included in the first slot.
        intro k hk l l' hkl hl hll'
        rw [hmem] at hl ⊢
        rcases hl with hl | hl
        · exact Or.inl (hsettled k (List.mem_cons_of_mem j hk) l l' hkl hl hll')
        · exact Or.inr (hl.trans hll')

/-- **The walk comes to what a slot includes in its order, to each slot once.** -/
theorem Ends.visitBy_eq {i : Nat} (h : s.Ends i) (depth : Nat) :
    ∀ (visited : List Nat) (out : α), unvisited s.size visited < depth → s.Settled visited i →
      visitBy (s.listed ModelType.constituents) tell depth i (visited, out)
        = ((fresh visited (s.included i)).reverse ++ visited,
            (fresh visited (s.included i)).foldl (fun out k => tell k out) out) := by
  induction h generalizing depth with
  | intro i hacc ih =>
      have hends : s.Ends i := Acc.intro i hacc
      intro visited out hlt hsettled
      obtain _ | depth := depth
      · exact absurd hlt (Nat.not_lt_zero _)
      rw [visitBy]
      by_cases hi : i ∈ visited
      · have hsub : s.included i ⊆ visited := fun k hk =>
          hsettled i k .refl hi (hends.mem_included.mp hk)
        rw [if_pos hi, fresh_eq_nil hsub]
        rfl
      · rw [if_neg hi, hends.included_eq, fresh_cons hi, List.foldl_cons, List.reverse_cons,
          List.append_assoc]
        cases hjs : s.listed ModelType.constituents i with
        | nil => rfl
        | cons j rest =>
            have hconstituent : ∀ k ∈ j :: rest, s.HasConstituent i k := fun k hk =>
              mem_listed_constituents.mp (hjs ▸ hk)
            have hfewer : unvisited s.size (i :: visited) < unvisited s.size visited :=
              unvisited_cons_lt (hconstituent j List.mem_cons_self).lt_size hi
            refine foldl_visitBy_eq tell (j :: rest)
              (fun k hk => hacc k (hconstituent k hk))
              (fun k hk => ih k (hconstituent k hk) depth) (i :: visited) (tell i out)
              (Nat.lt_of_lt_of_le hfewer (Nat.le_of_lt_succ hlt)) ?_
            -- The slot itself is not below its constituents, where nothing includes itself.
            intro k hk l l' hkl hl hll'
            have hil := Relation.TransGen.head' (hconstituent k hk) hkl
            rcases List.mem_cons.mp hl with rfl | hl
            · exact absurd hil (hends.not_cycle l .refl)
            · exact List.mem_cons_of_mem i (hsettled l l' hil.to_reflTransGen hl hll')

end Order

/-! ## Properties -/

/-- The walk for properties appends those that slots have of their own. -/
theorem visitProperties_eq (depth id : Nat) (found : List Nat × OrderedMap TypeId) :
    s.visitProperties depth id found
      = visitBy (s.listed ModelType.constituents) (fun k out => out.append (s.ownProperties k))
          depth id found := by
  rw [visitProperties_eq_visitBy]
  congr 1
  funext k out
  unfold ownProperties
  cases s.get? k with
  | none => rfl
  | some t =>
      cases t with
      | _ => rfl

/-- **Where nothing includes itself, properties are those of the included objects, appended in the
order in which these come first.** -/
theorem Ends.properties_eq {i : Nat} (h : s.Ends i) :
    s.properties i = .joined ((s.included i).eraseDups.map s.ownProperties) := by
  have hsettled : s.Settled [] i := fun _ _ _ hk => nomatch hk
  have hlt : unvisited s.size [] < s.size + 1 := Nat.lt_succ_of_le (unvisited_le s.size [])
  have hfresh : fresh [] (s.included i) = (s.included i).eraseDups := by
    have hall : ((s.included i).filter fun k => !([] : List Nat).contains k) = s.included i :=
      List.filter_eq_self.mpr fun _ _ => rfl
    rw [fresh, hall]
  rw [properties, visitProperties_eq, h.visitBy_eq _ _ _ _ hlt hsettled, hfresh,
    OrderedMap.joined, List.foldl_map]

section AllOf

variable {i : Nat} {name : TypeName} {package : String} {items : List TypeId} {d : Bool}

/-- A composed type has no properties of its own, and is not included in its constituents. -/
theorem Ends.properties_allOf (h : s.Ends i) (hget : s.get? i = some (.allOf name package items d)) :
    s.properties i = .joined ((items.flatMap s.included).eraseDups.map s.ownProperties) := by
  have hlisted : s.listed ModelType.constituents i = items := by
    rw [listed, hget]
    rfl
  have hown : s.ownProperties i = .empty := by rw [ownProperties, hget]
  have hmem : i ∉ items.flatMap s.included := by
    intro hi
    obtain ⟨j, hj, hji⟩ := List.mem_flatMap.mp hi
    have hij : s.HasConstituent i j := ⟨_, hget, hj⟩
    have hends : s.Ends j := h.inv hij
    have hback := hends.mem_included.mp hji
    exact h.not_cycle i .refl (Relation.TransGen.head' hij hback)
  have hrest : ((items.flatMap s.included).filter fun k => !k == i) = items.flatMap s.included := by
    refine List.filter_eq_self.mpr fun k hk => ?_
    have hne : ¬ k = i := fun e => hmem (e ▸ hk)
    simpa using hne
  rw [h.properties_eq, h.included_eq, hlisted, List.eraseDups_cons, hrest, List.map_cons,
    OrderedMap.joined_cons, hown, OrderedMap.empty_append]

/-- The names of a composed type are those of its constituents, one after the other. -/
theorem Ends.keys_properties (h : s.Ends i)
    (hget : s.get? i = some (.allOf name package items d)) :
    (s.properties i).keys = (OrderedMap.joined (items.map s.properties)).keys := by
  rw [h.properties_allOf hget, OrderedMap.keys_joined_eraseDups, OrderedMap.joined_flatMap]
  refine OrderedMap.keys_joined_congr fun j hj => ?_
  have hends : s.Ends j := h.inv ⟨_, hget, hj⟩
  rw [hends.properties_eq, OrderedMap.keys_joined_eraseDups]

/-- The value of a name is that of the last list of slots that has it, if no slot of several lists
has it. -/
theorem get?_joined_flatMap {below : Nat → List Nat} (js : List Nat) (property : String)
    (hapart : js.Pairwise fun j k => ∀ o, o ∈ below j → o ∈ below k →
      (s.ownProperties o).get? property = none) :
    (OrderedMap.joined ((js.flatMap below).eraseDups.map s.ownProperties)).get? property
      = (OrderedMap.joined
          (js.map fun j => .joined ((below j).eraseDups.map s.ownProperties))).get? property := by
  induction js with
  | nil => rfl
  | cons j rest ih =>
      rw [List.pairwise_cons] at hapart
      have hothers : ∀ o ∈ (rest.flatMap below).eraseDups,
          (!List.elem o (below j)) = false → (s.ownProperties o).get? property = none := by
        intro o ho hj
        rw [List.mem_eraseDups, List.mem_flatMap] at ho
        obtain ⟨k, hk, hok⟩ := ho
        rw [Bool.not_eq_false', List.elem_iff] at hj
        exact hapart.1 k hk o hj hok
      rw [List.flatMap_cons, List.eraseDups_append, List.map_append, OrderedMap.joined_append,
        List.map_cons, OrderedMap.joined_cons, OrderedMap.get?_append, OrderedMap.get?_append,
        List.removeAll, eraseDups_filter, OrderedMap.get?_joined_filter _ hothers, ih hapart.2]

theorem Ends.get?_properties (h : s.Ends i) (hget : s.get? i = some (.allOf name package items d))
    (property : String)
    (hapart : items.Pairwise fun j k => ∀ o, o ∈ s.included j → o ∈ s.included k →
      (s.ownProperties o).get? property = none) :
    (s.properties i).get? property
      = (OrderedMap.joined (items.map s.properties)).get? property := by
  have hitems : items.map s.properties
      = items.map fun j => .joined ((s.included j).eraseDups.map s.ownProperties) := by
    refine List.map_congr_left fun j hj => ?_
    exact Ends.properties_eq (h.inv ⟨_, hget, hj⟩)
  rw [h.properties_allOf hget, hitems, get?_joined_flatMap items property hapart]

/-- **The properties of a composed type are merged in the order in which objects come first.** If
nothing that a composed type includes includes itself, its properties are those of the objects that
it includes, appended in the order of the constituents and of what these include, an object that
comes again being left out. So the names are those that appending the properties of the constituents
gives, in the same order. A name has the value that this gives, unless an object that has it is
included in two constituents. -/
theorem properties_of_allOf (hget : s.get? i = some (.allOf name package items d))
    (hacyclic : ∀ k, Relation.ReflTransGen s.HasConstituent i k →
      ¬ Relation.TransGen s.HasConstituent k k) :
    s.properties i = .joined ((s.included i).eraseDups.map s.ownProperties) ∧
    (s.properties i).keys = (OrderedMap.joined (items.map s.properties)).keys ∧
    ∀ property : String,
      (items.Pairwise fun j k => ∀ o, o ∈ s.included j → o ∈ s.included k →
        (s.ownProperties o).get? property = none) →
      (s.properties i).get? property
        = (OrderedMap.joined (items.map s.properties)).get? property :=
  have hends : s.Ends i := ends_iff.mpr hacyclic
  ⟨hends.properties_eq, hends.keys_properties hget, hends.get?_properties hget⟩

end AllOf

end TypeStore

/-- A text and a number, two objects that have a property of either type, and a type that is composed
of the first object, the second one and the first one again. -/
def repeatedBase : TypeStore :=
  TypeStore.addAll {} [.primitive .string {} false, .primitive .integer {} false,
    .object ⟨"Base", "Base"⟩ "p" (.ofList [("x", 0)]) [] {} false,
    .object ⟨"Override", "Override"⟩ "p" (.ofList [("x", 1)]) [] {} false,
    .allOf ⟨"All", "All"⟩ "p" [2, 3, 2] false]

/-- Appending the properties of the constituents gives a text, but the property is a number. -/
theorem properties_of_repeatedBase :
    repeatedBase.properties (4 : Nat)
        = .joined ((repeatedBase.included 4).eraseDups.map repeatedBase.ownProperties) ∧
      (repeatedBase.properties (4 : Nat)).keys
        = (OrderedMap.joined ([2, 3, 2].map repeatedBase.properties)).keys ∧
      (repeatedBase.properties (4 : Nat)).get? "x" = some 1 ∧
      (OrderedMap.joined ([2, 3, 2].map repeatedBase.properties)).get? "x" = some 0 := by
  have hget : repeatedBase.get? (4 : Nat) = some (.allOf ⟨"All", "All"⟩ "p" [2, 3, 2] false) := rfl
  have hlisted : ∀ i, i < 5 → ∀ j ∈ repeatedBase.listed ModelType.constituents i, j < i := by
    decide +kernel
  have hbefore : ∀ i j, repeatedBase.HasConstituent i j → j < i := fun i j h =>
    hlisted i h.lt_size j (TypeStore.mem_listed_constituents.mpr h)
  obtain ⟨hmet, hkeys, _⟩ := TypeStore.properties_of_allOf hget fun k _ hk =>
    Nat.lt_irrefl k (TypeStore.lt_of_transGen hbefore hk)
  exact ⟨hmet, hkeys, by decide +kernel, by decide +kernel⟩

end ApiTypes
