import ApiTypes.Model.TypeStore

/-!
# What the operations of the store change

A store is seen through its size, the type in a slot, the annotations of a slot, and what a schema
became. Every operation has one equation for each of the four; nothing else opens the slots.
-/

set_option autoImplicit false

namespace ApiTypes

namespace TypeStore

variable (s : TypeStore)

/-- Adds types one by one. -/
def addAll (ts : List ModelType) : TypeStore :=
  ts.foldl (fun acc t => (acc.add t).2) s

/-- Adds annotations to a slot one by one. -/
def annotateAll (id : TypeId) (found : List Annotation) : TypeStore :=
  found.foldl (·.annotate id) s

theorem get?_eq_none_of_size_le {i : Nat} (h : s.size ≤ i) : s.get? i = none := by
  have hi : s.slots[i]? = none := Array.getElem?_eq_none h
  simp [get?, hi]

theorem annotations_eq_nil_of_size_le {i : Nat} (h : s.size ≤ i) : s.annotations i = [] := by
  have hnone : s.slots[i]? = none := Array.getElem?_eq_none h
  rw [annotations, hnone]
  rfl

theorem lt_size_of_get? {i : Nat} {t : ModelType} (h : s.get? i = some t) : i < s.size := by
  cases Nat.lt_or_ge i s.size with
  | inl hi => exact hi
  | inr hi =>
      rw [s.get?_eq_none_of_size_le hi] at h
      cases h

/-! ## Adding a type -/

@[simp] theorem add_fst (t : ModelType) : (s.add t).1 = s.size := rfl

@[simp] theorem size_add (t : ModelType) : (s.add t).2.size = s.size + 1 := by
  simp [add, size]

theorem get?_add (t : ModelType) (i : Nat) :
    (s.add t).2.get? i = if i = s.size then some t else s.get? i := by
  simp only [add, get?, size, Array.getElem?_push]
  by_cases h : i = s.slots.size
  · simp [h]
  · simp [h]

@[simp] theorem annotations_add (t : ModelType) (i : Nat) :
    (s.add t).2.annotations i = s.annotations i := by
  simp only [add, annotations, Array.getElem?_push]
  by_cases h : i = s.slots.size
  · simp [h]
  · simp [h]

@[simp] theorem lookup_add (t : ModelType) (key : MemoKey) :
    (s.add t).2.lookup key = s.lookup key := rfl

/-! ## Reserving a slot -/

@[simp] theorem reserve_fst : s.reserve.1 = s.size := rfl

@[simp] theorem size_reserve : s.reserve.2.size = s.size + 1 := by
  simp [reserve, size]

@[simp] theorem get?_reserve (i : Nat) : s.reserve.2.get? i = s.get? i := by
  simp only [reserve, get?, Array.getElem?_push]
  by_cases h : i = s.slots.size
  · simp [h]
  · simp [h]

@[simp] theorem annotations_reserve (i : Nat) :
    s.reserve.2.annotations i = s.annotations i := by
  simp only [reserve, annotations, Array.getElem?_push]
  by_cases h : i = s.slots.size
  · simp [h]
  · simp [h]

@[simp] theorem lookup_reserve (key : MemoKey) : s.reserve.2.lookup key = s.lookup key := rfl

/-! ## Filling a slot -/

@[simp] theorem size_fill (id : TypeId) (t : ModelType) : (s.fill id t).size = s.size := by
  simp [fill, size]

theorem get?_fill (id : TypeId) (t : ModelType) (i : Nat) :
    (s.fill id t).get? i = if i = id ∧ i < s.size then some t else s.get? i := by
  simp only [fill, get?, size, Array.getElem?_modify]
  by_cases h : id = i
  · subst h
    by_cases hi : id < s.slots.size
    · simp [hi]
    · simp [hi]
  · have h' : ¬ i = id := fun e => h e.symm
    simp [h, h']

@[simp] theorem annotations_fill (id : TypeId) (t : ModelType) (i : Nat) :
    (s.fill id t).annotations i = s.annotations i := by
  simp only [fill, annotations, Array.getElem?_modify]
  by_cases h : id = i
  · subst h
    cases hs : s.slots[id]? with
    | none => simp
    | some slot => simp
  · simp [h]

@[simp] theorem lookup_fill (id : TypeId) (t : ModelType) (key : MemoKey) :
    (s.fill id t).lookup key = s.lookup key := rfl

/-! ## Remembering what a schema became -/

@[simp] theorem size_remember (key : MemoKey) (id : TypeId) :
    (s.remember key id).size = s.size := rfl

@[simp] theorem get?_remember (key : MemoKey) (id i : Nat) :
    (s.remember key id).get? i = s.get? i := rfl

@[simp] theorem annotations_remember (key : MemoKey) (id i : Nat) :
    (s.remember key id).annotations i = s.annotations i := rfl

theorem lookup_remember (key : MemoKey) (id : TypeId) (other : MemoKey) :
    (s.remember key id).lookup other = if other = key then some id else s.lookup other := by
  simp only [remember, lookup, List.lookup_cons]
  by_cases h : other = key
  · simp [h]
  · have hb : (other == key) = false := by simpa using h
    simp [h, hb]

/-! ## Annotating a slot -/

@[simp] theorem size_annotate (id : TypeId) (a : Annotation) :
    (s.annotate id a).size = s.size := by
  simp [annotate, size]

@[simp] theorem get?_annotate (id : TypeId) (a : Annotation) (i : Nat) :
    (s.annotate id a).get? i = s.get? i := by
  simp only [annotate, get?, Array.getElem?_modify]
  by_cases h : id = i
  · subst h
    cases hs : s.slots[id]? with
    | none => simp
    | some slot => simp
  · simp [h]

theorem annotations_annotate (id : TypeId) (a : Annotation) (i : Nat) :
    (s.annotate id a).annotations i =
      if i = id ∧ i < s.size then addAnnotation (s.annotations i) a else s.annotations i := by
  simp only [annotate, annotations, size, Array.getElem?_modify]
  by_cases h : id = i
  · subst h
    by_cases hi : id < s.slots.size
    · simp [hi]
    · simp [hi]
  · have h' : ¬ i = id := fun e => h e.symm
    simp [h, h']

@[simp] theorem lookup_annotate (id : TypeId) (a : Annotation) (key : MemoKey) :
    (s.annotate id a).lookup key = s.lookup key := rfl

/-! ## Several at once -/

@[simp] theorem addAll_nil : s.addAll [] = s := rfl

@[simp] theorem addAll_cons (t : ModelType) (ts : List ModelType) :
    s.addAll (t :: ts) = (s.add t).2.addAll ts := rfl

theorem addAll_append (ts us : List ModelType) :
    s.addAll (ts ++ us) = (s.addAll ts).addAll us := by
  simp [addAll, List.foldl_append]

@[simp] theorem size_addAll (ts : List ModelType) : (s.addAll ts).size = s.size + ts.length := by
  induction ts generalizing s with
  | nil => rfl
  | cons t ts ih =>
      rw [addAll_cons, ih, size_add, List.length_cons]
      omega

@[simp] theorem lookup_addAll (ts : List ModelType) (key : MemoKey) :
    (s.addAll ts).lookup key = s.lookup key := by
  induction ts generalizing s with
  | nil => rfl
  | cons t ts ih => rw [addAll_cons, ih, lookup_add]

@[simp] theorem annotations_addAll (ts : List ModelType) (i : Nat) :
    (s.addAll ts).annotations i = s.annotations i := by
  induction ts generalizing s with
  | nil => rfl
  | cons t ts ih => rw [addAll_cons, ih, annotations_add]

/-- The types that are added stand in the slots from the end of the store on. -/
theorem get?_addAll (ts : List ModelType) (i : Nat) :
    (s.addAll ts).get? i = if i < s.size then s.get? i else ts[i - s.size]? := by
  induction ts generalizing s with
  | nil =>
      by_cases h : i < s.size
      · simp [h]
      · simp [h, s.get?_eq_none_of_size_le (Nat.le_of_not_lt h)]
  | cons t ts ih =>
      rw [addAll_cons, ih, size_add, get?_add]
      by_cases h : i < s.size
      · have hne : ¬ i = s.size := Nat.ne_of_lt h
        simp [h, hne, Nat.lt_succ_of_lt h]
      · by_cases he : i = s.size
        · simp [he]
        · have hlt : ¬ i < s.size + 1 := by omega
          have hsub : i - s.size = i - (s.size + 1) + 1 := by omega
          simp [h, hlt, hsub]

@[simp] theorem annotateAll_nil (id : TypeId) : s.annotateAll id [] = s := rfl

@[simp] theorem annotateAll_cons (id : TypeId) (a : Annotation) (found : List Annotation) :
    s.annotateAll id (a :: found) = (s.annotate id a).annotateAll id found := rfl

@[simp] theorem size_annotateAll (id : TypeId) (found : List Annotation) :
    (s.annotateAll id found).size = s.size := by
  induction found generalizing s with
  | nil => rfl
  | cons a found ih => rw [annotateAll_cons, ih, size_annotate]

@[simp] theorem get?_annotateAll (id : TypeId) (found : List Annotation) (i : Nat) :
    (s.annotateAll id found).get? i = s.get? i := by
  induction found generalizing s with
  | nil => rfl
  | cons a found ih => rw [annotateAll_cons, ih, get?_annotate]

@[simp] theorem lookup_annotateAll (id : TypeId) (found : List Annotation) (key : MemoKey) :
    (s.annotateAll id found).lookup key = s.lookup key := by
  induction found generalizing s with
  | nil => rfl
  | cons a found ih => rw [annotateAll_cons, ih, lookup_annotate]

/-- Annotations go to their slot, each once. -/
theorem annotations_annotateAll (id : TypeId) (found : List Annotation) (i : Nat) :
    (s.annotateAll id found).annotations i =
      if i = id ∧ i < s.size then found.foldl addAnnotation (s.annotations i)
      else s.annotations i := by
  induction found generalizing s with
  | nil => simp
  | cons a found ih =>
      rw [annotateAll_cons, ih, size_annotate, annotations_annotate]
      by_cases h : i = id ∧ i < s.size
      · rw [if_pos h, if_pos h, if_pos h, List.foldl_cons]
      · rw [if_neg h, if_neg h, if_neg h]

end TypeStore

end ApiTypes
