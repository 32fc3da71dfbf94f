import ApiTypes.Document.Value

/-!
# Equality of values

Whether two values are the same can be computed, from the values in them (`Value.same_iff`).
-/

set_option autoImplicit false

namespace ApiTypes.Value

mutual

/-- Whether two values are the same. -/
def same : Value → Value → Bool
  | null, null => true
  | bool a, bool b => a == b
  | num a, num b => decide (a = b)
  | str a, str b => a == b
  | list as, list bs => sameItems as bs
  | object as, object bs => sameMembers as bs
  | _, _ => false

/-- Whether two lists have the same items. -/
def sameItems : List Value → List Value → Bool
  | [], [] => true
  | a :: as, b :: bs => same a b && sameItems as bs
  | _, _ => false

/-- Whether two objects have the same members in the same order. -/
def sameMembers : List (String × Value) → List (String × Value) → Bool
  | [], [] => true
  | (name, a) :: as, (name', b) :: bs => name == name' && (same a b && sameMembers as bs)
  | _, _ => false

end

mutual

theorem same_refl : (v : Value) → same v v = true
  | null => rfl
  | bool b => by rw [same, beq_self_eq_true]
  | num n => by rw [same, decide_eq_true rfl]
  | str s => by rw [same, beq_self_eq_true]
  | list items => by rw [same, sameItems_refl items]
  | object members => by rw [same, sameMembers_refl members]

theorem sameItems_refl : (items : List Value) → sameItems items items = true
  | [] => rfl
  | v :: rest => by rw [sameItems, same_refl v, sameItems_refl rest, Bool.and_true]

theorem sameMembers_refl : (members : List (String × Value)) →
    sameMembers members members = true
  | [] => rfl
  | (name, v) :: rest => by
      rw [sameMembers, beq_self_eq_true, same_refl v, sameMembers_refl rest, Bool.and_true,
        Bool.and_true]

end

mutual

theorem eq_of_same : (v w : Value) → same v w = true → v = w := by
  intro v w h
  cases v with
  | null =>
      cases w with
      | null => rfl
      | _ => simp [same] at h
  | bool a =>
      cases w with
      | bool b => rw [eq_of_beq h]
      | _ => simp [same] at h
  | num a =>
      cases w with
      | num b => rw [of_decide_eq_true h]
      | _ => simp [same] at h
  | str a =>
      cases w with
      | str b => rw [eq_of_beq h]
      | _ => simp [same] at h
  | list as =>
      cases w with
      | list bs => rw [eq_of_sameItems as bs h]
      | _ => simp [same] at h
  | object as =>
      cases w with
      | object bs => rw [eq_of_sameMembers as bs h]
      | _ => simp [same] at h

theorem eq_of_sameItems : (as bs : List Value) → sameItems as bs = true → as = bs
  | [], [], _ => rfl
  | a :: as, b :: bs, h => by
      rw [sameItems, Bool.and_eq_true] at h
      rw [eq_of_same a b h.1, eq_of_sameItems as bs h.2]

theorem eq_of_sameMembers : (as bs : List (String × Value)) → sameMembers as bs = true → as = bs
  | [], [], _ => rfl
  | (name, a) :: as, (name', b) :: bs, h => by
      rw [sameMembers, Bool.and_eq_true, Bool.and_eq_true] at h
      rw [eq_of_beq h.1, eq_of_same a b h.2.1, eq_of_sameMembers as bs h.2.2]

end

/-- **Values that are computed to be the same are the same.** -/
theorem same_iff {v w : Value} : same v w = true ↔ v = w :=
  ⟨eq_of_same v w, fun h => h ▸ same_refl v⟩

instance : DecidableEq Value := fun _ _ => decidable_of_iff _ same_iff

end ApiTypes.Value
