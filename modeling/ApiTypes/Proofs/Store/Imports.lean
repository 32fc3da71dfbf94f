import ApiTypes.Proofs.Store.Merged

/-!
# The imports of a type

A walk that remembers where it was comes to a slot exactly if the slot can be reached, in every
store: also along parts that go round in a circle, and to slots that are reserved or do not exist
(`TypeStore.exists_visitBy_eq`). While it runs, a slot that was visited may still have slots below
it to be visited, but at the end none of those that were met has one (`TypeStore.Explores`).

So the imports of a type are the qualified names that the types need which can be reached along
parts, each of them once and in order (`TypeStore.imports_closure`). What the properties of a model
refer to is told by the same walk (`TypeStore.mem_referencedImports_of_isModel`).
-/

set_option autoImplicit false

universe u

namespace ApiTypes

namespace TypeStore

variable {s : TypeStore}

/-! ## What a walk comes to -/

section Visit

variable {α : Type u} {below : Nat → List Nat} {tell : Nat → α → α}

/-- A slot is right below another one. -/
def IsBelow (below : Nat → List Nat) (i j : Nat) : Prop := j ∈ below i

/-- What a walk meets that begins at some slots when others were visited before. -/
structure Explores (below : Nat → List Nat) (starts visited met : List Nat) : Prop where
  /-- Where the walk begins is met, unless it was visited. -/
  start : ∀ i ∈ starts, i ∈ visited ∨ i ∈ met
  /-- What is met can be reached. -/
  reached : ∀ k ∈ met, ∃ i ∈ starts, Relation.ReflTransGen (IsBelow below) i k
  /-- What is right below a slot that is met is met as well, unless it was visited. -/
  closed : ∀ k ∈ met, ∀ j ∈ below k, j ∈ visited ∨ j ∈ met

namespace Explores

variable {starts starts' visited met met' : List Nat} {i k : Nat}

theorem nil (below : Nat → List Nat) (visited : List Nat) : Explores below [] visited [] where
  start := nofun
  reached := nofun
  closed := nofun

/-- A slot that was visited leads to nothing more. -/
theorem of_mem (below : Nat → List Nat) (h : i ∈ visited) : Explores below [i] visited [] where
  start _ hk := Or.inl (List.mem_singleton.mp hk ▸ h)
  reached := nofun
  closed := nofun

/-- A slot is met before those below it. -/
theorem cons (h : Explores below (below i) (i :: visited) met) :
    Explores below [i] visited (i :: met) where
  start _ hk := Or.inr (List.mem_singleton.mp hk ▸ List.mem_cons_self)
  reached k hk := by
    refine ⟨i, List.mem_singleton_self i, ?_⟩
    rcases List.mem_cons.mp hk with rfl | hk
    · exact .refl
    · obtain ⟨j, hj, hjk⟩ := h.reached k hk
      exact .head hj hjk
  closed k hk j hj := by
    -- The slot itself counts as visited below, and as met here.
    have hmet : j ∈ i :: visited ∨ j ∈ met → j ∈ visited ∨ j ∈ i :: met := by
      simp only [List.mem_cons]
      tauto
    rcases List.mem_cons.mp hk with rfl | hk
    · exact hmet (h.start j hj)
    · exact hmet (h.closed k hk j hj)

/-- One walk after the other. -/
theorem append (h : Explores below starts visited met)
    (h' : Explores below starts' (met.reverse ++ visited) met') :
    Explores below (starts ++ starts') visited (met ++ met') where
  start k hk := by
    rw [List.mem_append]
    rcases List.mem_append.mp hk with hk | hk
    · have := h.start k hk
      tauto
    · have := h'.start k hk
      simp only [List.mem_append, List.mem_reverse] at this
      tauto
  reached k hk := by
    rcases List.mem_append.mp hk with hk | hk
    · obtain ⟨i, hi, hik⟩ := h.reached k hk
      exact ⟨i, List.mem_append_left _ hi, hik⟩
    · obtain ⟨i, hi, hik⟩ := h'.reached k hk
      exact ⟨i, List.mem_append_right _ hi, hik⟩
  closed k hk j hj := by
    rw [List.mem_append]
    rcases List.mem_append.mp hk with hk | hk
    · have := h.closed k hk j hj
      tauto
    · have := h'.closed k hk j hj
      simp only [List.mem_append, List.mem_reverse] at this
      tauto

/-- A walk that begins at one slot when none was visited comes to all that can be reached. -/
theorem mem_iff (h : Explores below [i] [] met) :
    k ∈ met ↔ Relation.ReflTransGen (IsBelow below) i k := by
  constructor
  · intro hk
    obtain ⟨j, hj, hjk⟩ := h.reached k hk
    rwa [List.mem_singleton.mp hj] at hjk
  · intro hik
    induction hik with
    | refl => exact (h.start i (List.mem_singleton_self i)).resolve_left List.not_mem_nil
    | tail _ hjk ih => exact (h.closed _ ih _ hjk).resolve_left List.not_mem_nil

end Explores

/-- One slot after the other, if the walk from each of them is as it should be. -/
theorem exists_foldl_visitBy_eq {depth size : Nat}
    (hvisit : ∀ (id : Nat) (visited : List Nat) (out : α), unvisited size visited < depth →
      ∃ met, Explores below [id] visited met ∧ visitBy below tell depth id (visited, out)
        = (met.reverse ++ visited, met.foldl (fun out k => tell k out) out))
    (js visited : List Nat) (out : α) (hlt : unvisited size visited < depth) :
    ∃ met, Explores below js visited met ∧
      js.foldl (fun found j => visitBy below tell depth j found) (visited, out)
        = (met.reverse ++ visited, met.foldl (fun out k => tell k out) out) := by
  induction js generalizing visited out with
  | nil => exact ⟨[], .nil below visited, rfl⟩
  | cons j rest ih =>
      obtain ⟨met, hmet, hj⟩ := hvisit j visited out hlt
      have hfewer : unvisited size (met.reverse ++ visited) < depth :=
        Nat.lt_of_le_of_lt (unvisited_mono size (List.subset_append_right _ _)) hlt
      obtain ⟨met', hmet', hrest⟩ := ih _ (met.foldl (fun out k => tell k out) out) hfewer
      refine ⟨met ++ met', hmet.append hmet', ?_⟩
      rw [List.foldl_cons, hj, hrest, List.foldl_append, List.reverse_append, List.append_assoc]

theorem exists_visitBy_eq_of_lt {size : Nat} (hbelow : ∀ id j, j ∈ below id → id < size)
    (depth : Nat) : ∀ (id : Nat) (visited : List Nat) (out : α), unvisited size visited < depth →
      ∃ met, Explores below [id] visited met ∧ visitBy below tell depth id (visited, out)
        = (met.reverse ++ visited, met.foldl (fun out k => tell k out) out) := by
  induction depth with
  | zero => exact fun _ _ _ h => absurd h (Nat.not_lt_zero _)
  | succ depth ih =>
      intro id visited out hlt
      rw [visitBy]
      by_cases hid : id ∈ visited
      · rw [if_pos hid]
        exact ⟨[], .of_mem below hid, rfl⟩
      · rw [if_neg hid]
        cases hjs : below id with
        | nil =>
            have hmet : Explores below (below id) (id :: visited) [] := by
              rw [hjs]
              exact .nil below _
            exact ⟨[id], hmet.cons, rfl⟩
        | cons j rest =>
            have hfewer : unvisited size (id :: visited) < unvisited size visited :=
              unvisited_cons_lt (hbelow id j (hjs ▸ List.mem_cons_self)) hid
            obtain ⟨met, hmet, heq⟩ := exists_foldl_visitBy_eq ih (j :: rest) (id :: visited)
              (tell id out) (Nat.lt_of_lt_of_le hfewer (Nat.le_of_lt_succ hlt))
            rw [← hjs] at hmet
            refine ⟨id :: met, hmet.cons, ?_⟩
            rw [heq, List.foldl_cons, List.reverse_cons, List.append_assoc]
            rfl

variable (below tell) in
/-- **A walk that remembers where it was tells of the slots that can be reached.** -/
theorem exists_visitBy_eq {size : Nat} (hbelow : ∀ id j, j ∈ below id → id < size) (id : Nat)
    (out : α) : ∃ met : List Nat,
      (∀ k, k ∈ met ↔ Relation.ReflTransGen (IsBelow below) id k) ∧
      (visitBy below tell (size + 1) id ([], out)).2
        = met.foldl (fun out k => tell k out) out := by
  obtain ⟨met, hmet, heq⟩ := exists_visitBy_eq_of_lt hbelow (size + 1) id [] out
    (Nat.lt_succ_of_le (unvisited_le size []))
  exact ⟨met, fun _ => hmet.mem_iff, congrArg Prod.snd heq⟩

end Visit

end TypeStore

/-! ## Sorted texts -/

section Sorted

variable {α : Type u}

theorem eraseRepsBy_loop_eq (r : α → α → Bool) (a : α) (l acc : List α) :
    List.eraseRepsBy.loop r a l acc = acc.reverse ++ List.eraseRepsBy.loop r a l [] := by
  induction l generalizing a acc with
  | nil => simp [List.eraseRepsBy.loop]
  | cons b l ih =>
      rw [List.eraseRepsBy.loop, List.eraseRepsBy.loop]
      cases r a b with
      | true => exact ih a acc
      | false =>
          dsimp only
          rw [ih b (a :: acc), ih b [a], List.reverse_cons, List.reverse_singleton,
            List.append_assoc]

variable [DecidableEq α]

theorem eraseReps_cons_cons (a b : α) (l : List α) :
    (a :: b :: l).eraseReps = if a = b then (a :: l).eraseReps else a :: (b :: l).eraseReps := by
  show List.eraseRepsBy.loop (· == ·) a (b :: l) [] = _
  rw [List.eraseRepsBy.loop]
  by_cases hab : a = b
  · rw [if_pos hab, beq_iff_eq.mpr hab]
    rfl
  · rw [if_neg hab, beq_eq_false_iff_ne.mpr hab]
    exact eraseRepsBy_loop_eq (· == ·) b l [a]

/-- Erasing repetitions keeps what is in a list. -/
theorem mem_eraseReps_cons {a x : α} {l : List α} : x ∈ (a :: l).eraseReps ↔ x ∈ a :: l := by
  induction l generalizing a with
  | nil => rfl
  | cons b l ih =>
      rw [eraseReps_cons_cons]
      by_cases hab : a = b
      · rw [if_pos hab, ih, hab]
        simp
      · rw [if_neg hab, List.mem_cons, ih, List.mem_cons (a := x) (b := a)]

/-- Where a list rises but for repetitions, it rises when they are erased. -/
theorem pairwise_eraseReps_cons {r : α → α → Prop} (htrans : ∀ a b c, r a b → r b c → r a c)
    {a : α} {l : List α} (h : (a :: l).Pairwise fun x y => x ≠ y → r x y) :
    (a :: l).eraseReps.Pairwise r := by
  induction l generalizing a with
  | nil => exact List.pairwise_singleton r a
  | cons b l ih =>
      obtain ⟨ha, hb, hl⟩ : (∀ x ∈ b :: l, a ≠ x → r a x) ∧ (∀ x ∈ l, b ≠ x → r b x) ∧
          l.Pairwise fun x y => x ≠ y → r x y := by
        rwa [List.pairwise_cons, List.pairwise_cons] at h
      rw [eraseReps_cons_cons]
      by_cases hab : a = b
      · rw [if_pos hab]
        exact ih (List.pairwise_cons.mpr ⟨fun x hx => ha x (List.mem_cons_of_mem b hx), hl⟩)
      · rw [if_neg hab, List.pairwise_cons]
        refine ⟨fun x hx => ?_, ih (List.pairwise_cons.mpr ⟨hb, hl⟩)⟩
        have hrise : r a b := ha b List.mem_cons_self hab
        rcases List.mem_cons.mp (mem_eraseReps_cons.mp hx) with rfl | hx
        · exact hrise
        · by_cases hbx : b = x
          · exact hbx ▸ hrise
          · exact htrans a b x hrise (hb x hx hbx)

end Sorted

@[simp] theorem mem_sortedSet {texts : List String} {text : String} :
    text ∈ sortedSet texts ↔ text ∈ texts := by
  have hsort : text ∈ texts.mergeSort (fun a b => !decide (b < a)) ↔ text ∈ texts :=
    List.mem_mergeSort
  rw [sortedSet, ← hsort]
  cases texts.mergeSort fun a b => !decide (b < a) with
  | nil => rfl
  | cons first rest => exact mem_eraseReps_cons

/-- The texts of a sorted set stand in order, each of them once. -/
theorem pairwise_sortedSet (texts : List String) : (sortedSet texts).Pairwise (· < ·) := by
  have hsort : (texts.mergeSort fun a b => !decide (b < a)).Pairwise fun a b => a ≠ b → a < b := by
    have hle : ∀ a b : String, (!decide (b < a)) = true ↔ a ≤ b := by
      intro a b
      rw [Bool.not_eq_true', decide_eq_false_iff_not, String.not_lt]
    have htrans : ∀ a b c : String, (!decide (b < a)) = true → (!decide (c < b)) = true →
        (!decide (c < a)) = true := by
      intro a b c hab hbc
      rw [hle] at hab hbc ⊢
      exact String.le_trans hab hbc
    have htotal : ∀ a b : String, (!decide (b < a) || !decide (a < b)) = true := by
      intro a b
      rw [Bool.or_eq_true, hle, hle]
      exact String.le_total a b
    refine (List.pairwise_mergeSort htrans htotal texts).imp fun {a b} hab hne => ?_
    rw [hle] at hab
    by_contra hlt
    exact hne (String.le_antisymm hab (String.not_lt.mp hlt))
  unfold sortedSet
  cases hsorted : texts.mergeSort fun a b => !decide (b < a) with
  | nil => exact List.Pairwise.nil
  | cons first rest =>
      rw [hsorted] at hsort
      exact pairwise_eraseReps_cons (r := (· < ·)) (fun _ _ _ => String.lt_trans) hsort

/-! ## Imports -/

namespace ModelType

/-- The qualified names that a type needs for itself, whatever it is written with. -/
inductive Needs : ModelType → String → Prop
  /-- A built-in type needs its own name. -/
  | primitive (kind : Primitive) (c : Constraints) (d : Bool) :
      Needs (.primitive kind c d) (kind.package ++ "." ++ kind.name)
  /-- So does a generated type with properties. -/
  | object (name : TypeName) (package : String) (properties : OrderedMap TypeId)
      (required : List String) (c : Constraints) (d : Bool) :
      Needs (.object name package properties required c d) (qualify package name.generated)
  /-- So does a composed type. -/
  | allOf (name : TypeName) (package : String) (items : List TypeId) (d : Bool) :
      Needs (.allOf name package items d) (qualify package name.generated)
  /-- So does an enumeration. -/
  | enum (name : TypeName) (package : String) (values : List String) (c : Constraints) (d : Bool) :
      Needs (.enum name package values c d) (qualify package name.generated)
  /-- So do alternatives that become an interface. -/
  | interface (name : TypeName) (package : String) (items : List TypeId) (d : Bool) :
      Needs (.oneOf name package items true d) (qualify package name.generated)
  /-- Other alternatives are any object. -/
  | anyObject (name : TypeName) (package : String) (items : List TypeId) (d : Bool) :
      Needs (.oneOf name package items false d) "java.lang.Object"
  /-- A type that a rule gives needs its name if it has a package. -/
  | mapped (name : String) {package : String} (generics : List TypeId) (isArray : Bool)
      (c : Constraints) (d : Bool) :
      package ≠ "" → Needs (.mapped name package generics isArray c d) (package ++ "." ++ name)

theorem mem_ownImports {t : ModelType} {q : String} : q ∈ t.ownImports ↔ t.Needs q := by
  constructor
  · intro h
    cases t with
    | primitive kind c d =>
        rw [List.mem_singleton.mp h]
        exact .primitive kind c d
    | array item c d => cases h
    | map item c d => cases h
    | object name package properties required c d =>
        rw [List.mem_singleton.mp h]
        exact .object name package properties required c d
    | allOf name package items d =>
        rw [List.mem_singleton.mp h]
        exact .allOf name package items d
    | enum name package values c d =>
        rw [List.mem_singleton.mp h]
        exact .enum name package values c d
    | oneOf name package items isInterface d =>
        cases isInterface with
        | true =>
            rw [List.mem_singleton.mp h]
            exact .interface name package items d
        | false =>
            rw [List.mem_singleton.mp h]
            exact .anyObject name package items d
    | mapped name package generics isArray c d =>
        rw [ownImports] at h
        by_cases hpackage : package = ""
        · rw [hpackage] at h
          cases h
        · have hempty : package.isEmpty = false := by simpa using hpackage
          rw [hempty] at h
          rw [List.mem_singleton.mp h, qualify, hempty]
          exact .mapped name generics isArray c d hpackage
  · intro h
    cases h with
    | @mapped name package generics isArray c d hpackage =>
        have hempty : package.isEmpty = false := by simpa using hpackage
        rw [ownImports, qualify, hempty]
        exact List.mem_singleton_self _
    | _ => exact List.mem_singleton_self _

end ModelType

namespace TypeStore

variable (s : TypeStore)

/-- The imports of a type are what the types need that can be reached from it along parts. -/
theorem mem_importList {id : Nat} {q : String} :
    q ∈ s.importList id ↔ ∃ j, Relation.ReflTransGen s.HasPart id j ∧
      ∃ t, s.get? j = some t ∧ t.Needs q := by
  obtain ⟨met, hmet, heq⟩ := exists_visitBy_eq (s.listed ModelType.parts)
    (fun id out => out ++ ((s.get? id).map ModelType.ownImports).getD [])
    (fun _ _ => lt_size_of_mem_listed) id ([] : List String)
  have hbelow : IsBelow (s.listed ModelType.parts) = s.HasPart := by
    funext i j
    exact propext mem_listed
  have hown : ∀ j, q ∈ ((s.get? j).map ModelType.ownImports).getD [] ↔
      ∃ t, s.get? j = some t ∧ t.Needs q := by
    intro j
    cases s.get? j with
    | none => simp
    | some t => simp [ModelType.mem_ownImports]
  rw [importList, visitImports_eq_visitBy, heq, ← List.flatMap_eq_foldl, List.mem_flatMap]
  simp only [hmet, hbelow, hown]

/-- What a type imports is what it needs, and what its parts import. -/
theorem mem_imports_iff {s : TypeStore} {id : Nat} {q : String} {t : ModelType} (hget : s.get? id = some t) :
    q ∈ s.imports id ↔ t.Needs q ∨ ∃ i ∈ t.parts, q ∈ s.imports i := by
  simp only [imports, mem_sortedSet, mem_importList]
  constructor
  · rintro ⟨j, hreach, u, hu, hneeds⟩
    rcases Relation.ReflTransGen.cases_head hreach with rfl | ⟨i, ⟨t', ht', hi⟩, hreach⟩
    · rw [hget] at hu
      cases hu
      exact .inl hneeds
    · rw [hget] at ht'
      cases ht'
      exact .inr ⟨i, hi, j, hreach, u, hu, hneeds⟩
  · rintro (hneeds | ⟨i, hi, j, hreach, u, hu, hneeds⟩)
    · exact ⟨id, .refl, t, hget, hneeds⟩
    · exact ⟨j, .head ⟨t, hget, hi⟩ hreach, u, hu, hneeds⟩

/-- **Imports are the closure over what types are written with.** In every store, and for every
number, the imports of a type are the qualified names that are needed by the types which can be
reached from it along items and type arguments, in order and each of them once. -/
theorem imports_closure (id : Nat) :
    (∀ q, q ∈ s.imports id ↔ ∃ j, Relation.ReflTransGen s.HasPart id j ∧
      ∃ t, s.get? j = some t ∧ t.Needs q) ∧
    (s.imports id).Pairwise (· < ·) := by
  refine ⟨fun q => ?_, pairwise_sortedSet _⟩
  rw [imports, mem_sortedSet, mem_importList]

end TypeStore

/-! ## What models refer to -/

/-- Whether a type is a model: a generated type with properties, which is an object or a composed
type. -/
def ModelType.isModel : ModelType → Bool
  | object .. => true
  | allOf .. => true
  | _ => false

namespace TypeStore

variable {s : TypeStore}

/-- What the properties of a model, or the annotations of the model and of its properties, bring
among what the model refers to. -/
inductive Brings (s : TypeStore) (i : Nat) (q : String) : Prop
  /-- An annotation of the model. -/
  | annotation : q ∈ s.annotationImports i → Brings s i q
  /-- An annotation of a property. -/
  | property {p : Nat} :
      p ∈ (s.properties i).values → q ∈ s.annotationImports p → Brings s i q
  /-- A type that a property is written with. -/
  | part {p j : Nat} {t : ModelType} : p ∈ (s.properties i).values →
      Relation.ReflTransGen s.HasPart p j → s.get? j = some t → t.Needs q → Brings s i q

/-- **What a model refers to is what its properties and the annotations bring.** -/
theorem mem_referencedImports_of_isModel {i : Nat} {t : ModelType} (hget : s.get? i = some t)
    (hmodel : t.isModel = true) {q : String} : q ∈ s.referencedImports i ↔ s.Brings i q := by
  have hfrom : s.referencedImports i = sortedSet (s.annotationImports i ++
      (s.properties i).values.flatMap fun p => s.importList p ++ s.annotationImports p) := by
    rw [referencedImports, referencedWithin, hget]
    cases t with
    | object name package properties required c d => rfl
    | allOf name package items d => rfl
    | _ => cases hmodel
  rw [hfrom, mem_sortedSet, List.mem_append, List.mem_flatMap]
  constructor
  · rintro (h | ⟨p, hp, h⟩)
    · exact Brings.annotation h
    · rcases List.mem_append.mp h with h | h
      · obtain ⟨j, hpj, u, hu, hneeds⟩ := s.mem_importList.mp h
        exact .part hp hpj hu hneeds
      · exact .property hp h
  · rintro (h | ⟨hp, h⟩ | ⟨hp, hpj, hu, hneeds⟩)
    · exact Or.inl h
    · exact Or.inr ⟨_, hp, List.mem_append_right _ h⟩
    · exact Or.inr ⟨_, hp, List.mem_append_left _ (s.mem_importList.mpr ⟨_, hpj, _, hu, hneeds⟩)⟩

/-- A property of a type is one that an object has of its own. -/
theorem exists_of_mem_properties {i p : Nat} (h : p ∈ (s.properties i).values) :
    ∃ k t, s.get? k = some t ∧ p ∈ t.references := by
  obtain ⟨met, _, heq⟩ := exists_visitBy_eq (s.listed ModelType.constituents)
    (fun k out => out.append (s.ownProperties k)) (fun _ _ => lt_size_of_mem_listed) i
    (.empty : OrderedMap TypeId)
  have hjoined : s.properties i = .joined (met.map s.ownProperties) := by
    rw [properties, visitProperties_eq, heq, OrderedMap.joined, List.foldl_map]
  rw [hjoined] at h
  obtain ⟨k, _, hk⟩ := OrderedMap.mem_values_joined h
  rw [ownProperties] at hk
  split at hk
  · rename_i hget
    exact ⟨k, _, hget, hk⟩
  · cases hk

end TypeStore

end ApiTypes
