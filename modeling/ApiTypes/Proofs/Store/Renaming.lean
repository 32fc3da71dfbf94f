import ApiTypes.Model.ModelType

/-!
# Renaming the types that a type refers to

A type refers to other types by their numbers. Renaming applies a function to these numbers and
leaves everything else as it is; it depends only on the numbers that occur (`rename_congr`) and
composes (`rename_rename`). A type whose numbers are places in a list of parts becomes a type of
the store by renaming each place to the number of the part.
-/

set_option autoImplicit false

universe u v w

namespace ApiTypes

namespace OrderedMap

variable {α : Type u} {β : Type v} {γ : Type w}

theorem ext_entries {m n : OrderedMap α} (h : m.entries = n.entries) : m = n := by
  cases m with
  | mk entries nodup =>
      cases n with
      | mk other nodup' =>
          cases h
          rfl

/-- Applies a function to the values. -/
def map (f : α → β) (m : OrderedMap α) : OrderedMap β where
  entries := m.entries.map fun entry => (entry.1, f entry.2)
  nodup_keys := by
    have h : (m.entries.map fun entry => (entry.1, f entry.2)).map Prod.fst
        = m.entries.map Prod.fst := by
      rw [List.map_map]
      rfl
    rw [h]
    exact m.nodup_keys

@[simp] theorem entries_map (f : α → β) (m : OrderedMap α) :
    (m.map f).entries = m.entries.map fun entry => (entry.1, f entry.2) := rfl

theorem values_map (f : α → β) (m : OrderedMap α) : (m.map f).values = m.values.map f := by
  simp [values, Function.comp_def]

theorem map_map (f : α → β) (g : β → γ) (m : OrderedMap α) :
    (m.map f).map g = m.map fun a => g (f a) := by
  apply ext_entries
  simp [Function.comp_def]

theorem map_id (m : OrderedMap α) : (m.map fun a => a) = m := by
  apply ext_entries
  simp

theorem map_congr {f g : α → β} {m : OrderedMap α} (h : ∀ a ∈ m.values, f a = g a) :
    m.map f = m.map g := by
  apply ext_entries
  simp only [entries_map]
  apply List.map_congr_left
  intro entry hentry
  rw [h entry.2 (List.mem_map_of_mem hentry)]

theorem insertEntry_map (f : α → β) (name : String) (value : α) (entries : List (String × α)) :
    insertEntry name (f value) (entries.map fun entry => (entry.1, f entry.2))
      = (insertEntry name value entries).map fun entry => (entry.1, f entry.2) := by
  induction entries with
  | nil => rfl
  | cons entry rest ih =>
      obtain ⟨n, v⟩ := entry
      by_cases h : n = name
      · simp [insertEntry, h]
      · simp [insertEntry, h, ih]

theorem insertAll_map (f : α → β) (m : OrderedMap α) (entries : List (String × α)) :
    (m.map f).insertAll (entries.map fun entry => (entry.1, f entry.2))
      = (m.insertAll entries).map f := by
  induction entries generalizing m with
  | nil => rfl
  | cons entry rest ih =>
      have hinsert : (m.map f).insert entry.1 (f entry.2) = (m.insert entry.1 entry.2).map f :=
        ext_entries (insertEntry_map f entry.1 entry.2 m.entries)
      rw [List.map_cons, insertAll_cons, insertAll_cons, ← ih, hinsert]

/-- Applying a function to the values of a list of entries and making the map commute. -/
theorem ofList_map (f : α → β) (entries : List (String × α)) :
    ofList (entries.map fun entry => (entry.1, f entry.2)) = (ofList entries).map f :=
  insertAll_map f empty entries

theorem mem_insertEntry {name : String} {value : α} {entry : String × α}
    {entries : List (String × α)} (h : entry ∈ insertEntry name value entries) :
    entry = (name, value) ∨ entry ∈ entries := by
  induction entries with
  | nil => exact Or.inl (List.mem_singleton.mp h)
  | cons first rest ih =>
      obtain ⟨n, v⟩ := first
      by_cases hn : n = name
      · simp only [insertEntry, hn, if_true, List.mem_cons] at h
        exact h.imp id (List.mem_cons_of_mem _)
      · simp only [insertEntry, hn, if_false, List.mem_cons] at h
        rcases h with rfl | h
        · exact Or.inr List.mem_cons_self
        · exact (ih h).imp id (List.mem_cons_of_mem _)

theorem mem_entries_insertAll {entry : String × α} {m : OrderedMap α}
    {entries : List (String × α)} (h : entry ∈ (m.insertAll entries).entries) :
    entry ∈ m.entries ∨ entry ∈ entries := by
  induction entries generalizing m with
  | nil => exact Or.inl h
  | cons first rest ih =>
      rw [insertAll_cons] at h
      rcases ih h with h' | h'
      · rcases mem_insertEntry h' with rfl | h''
        · exact Or.inr List.mem_cons_self
        · exact Or.inl h''
      · exact Or.inr (List.mem_cons_of_mem _ h')

/-- The entries of a map made from a list come from the list. -/
theorem mem_entries_ofList {entry : String × α} {entries : List (String × α)}
    (h : entry ∈ (ofList entries).entries) : entry ∈ entries := by
  rcases mem_entries_insertAll h with h' | h'
  · cases h'
  · exact h'

/-- The values of a map made from a list come from the list. -/
theorem mem_values_ofList {a : α} {entries : List (String × α)}
    (h : a ∈ (ofList entries).values) : a ∈ entries.map Prod.snd := by
  obtain ⟨entry, hentry, rfl⟩ := List.mem_map.mp h
  exact List.mem_map_of_mem (mem_entries_ofList hentry)

end OrderedMap

namespace ModelType

/-- Applies a function to the numbers of the types that a type refers to. -/
def rename (f : TypeId → TypeId) : ModelType → ModelType
  | primitive kind c d => primitive kind c d
  | array item c d => array (f item) c d
  | map item c d => map (f item) c d
  | object name package properties required c d =>
      object name package (properties.map f) required c d
  | allOf name package items d => allOf name package (items.map f) d
  | oneOf name package items isInterface d => oneOf name package (items.map f) isInterface d
  | enum name package values c d => enum name package values c d
  | mapped name package generics isArray c d => mapped name package (generics.map f) isArray c d

theorem rename_rename (f g : TypeId → TypeId) (t : ModelType) :
    (t.rename f).rename g = t.rename fun i => g (f i) := by
  cases t with
  | object name package properties required c d =>
      simp only [rename, OrderedMap.map_map]
  | primitive kind c d => rfl
  | array item c d => rfl
  | map item c d => rfl
  | allOf name package items d => simp [rename]
  | oneOf name package items isInterface d => simp [rename]
  | enum name package values c d => rfl
  | mapped name package generics isArray c d => simp [rename]

theorem references_rename (f : TypeId → TypeId) (t : ModelType) :
    (t.rename f).references = t.references.map f := by
  cases t with
  | object name package properties required c d =>
      simp only [rename, references, OrderedMap.values_map]
  | primitive kind c d => rfl
  | array item c d => rfl
  | map item c d => rfl
  | allOf name package items d => rfl
  | oneOf name package items isInterface d => rfl
  | enum name package values c d => rfl
  | mapped name package generics isArray c d => rfl

/-- Only the numbers that a type refers to count. -/
theorem rename_congr {f g : TypeId → TypeId} {t : ModelType}
    (h : ∀ i ∈ t.references, f i = g i) : t.rename f = t.rename g := by
  cases t with
  | object name package properties required c d =>
      simp only [rename, object.injEq, true_and, and_true]
      exact OrderedMap.map_congr h
  | primitive kind c d => rfl
  | array item c d => rw [rename, rename, h item (List.mem_singleton_self item)]
  | map item c d => rw [rename, rename, h item (List.mem_singleton_self item)]
  | allOf name package items d =>
      have hmap : items.map f = items.map g := List.map_congr_left h
      rw [rename, rename, hmap]
  | oneOf name package items isInterface d =>
      have hmap : items.map f = items.map g := List.map_congr_left h
      rw [rename, rename, hmap]
  | enum name package values c d => rfl
  | mapped name package generics isArray c d =>
      have hmap : generics.map f = generics.map g := List.map_congr_left h
      rw [rename, rename, hmap]

theorem rename_id (t : ModelType) : (t.rename fun i => i) = t := by
  cases t with
  | object name package properties required c d => simp only [rename, OrderedMap.map_id]
  | primitive kind c d => rfl
  | array item c d => rfl
  | map item c d => rfl
  | allOf name package items d => simp [rename]
  | oneOf name package items isInterface d => simp [rename]
  | enum name package values c d => rfl
  | mapped name package generics isArray c d => simp [rename]

/-- Leaves out constituents of a composed type; other types stay as they are. -/
def keepItems (p : TypeId → Bool) : ModelType → ModelType
  | allOf name package items d => allOf name package (items.filter p) d
  | t => t

theorem references_keepItems_subset (p : TypeId → Bool) (t : ModelType) :
    (t.keepItems p).references ⊆ t.references := by
  cases t with
  | allOf name package items d => exact List.filter_sublist.subset
  | primitive kind c d => exact fun _ h => h
  | array item c d => exact fun _ h => h
  | map item c d => exact fun _ h => h
  | object name package properties required c d => exact fun _ h => h
  | oneOf name package items isInterface d => exact fun _ h => h
  | enum name package values c d => exact fun _ h => h
  | mapped name package generics isArray c d => exact fun _ h => h

end ModelType

end ApiTypes
