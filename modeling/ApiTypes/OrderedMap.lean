/-!
# Ordered maps

A map from names to values that remembers the order in which names were first inserted. A name
that is inserted again keeps its position and takes the new value; appending one map to another
inserts its entries one by one, so the merge is "first position, last value"
(`keys_insert`, `get?_insert`).
-/

set_option autoImplicit false

universe u

namespace ApiTypes

/-- Puts `value` under `name`: at the position of `name` if it is there, else at the end. -/
def insertEntry {α : Type u} (name : String) (value : α) :
    List (String × α) → List (String × α)
  | [] => [(name, value)]
  | (n, v) :: rest =>
      if n = name then (name, value) :: rest else (n, v) :: insertEntry name value rest

/-- The value of the first entry under `name`. -/
def findValue? {α : Type u} (name : String) : List (String × α) → Option α
  | [] => none
  | (n, v) :: rest => if n = name then some v else findValue? name rest

theorem keys_insertEntry {α : Type u} (name : String) (value : α) (entries : List (String × α)) :
    (insertEntry name value entries).map Prod.fst
      = if name ∈ entries.map Prod.fst then entries.map Prod.fst
        else entries.map Prod.fst ++ [name] := by
  induction entries with
  | nil => simp [insertEntry]
  | cons entry rest ih =>
      obtain ⟨n, v⟩ := entry
      by_cases h : n = name
      · subst h
        simp [insertEntry]
      · have h' : ¬ name = n := fun e => h e.symm
        simp only [insertEntry, h, if_false, List.map_cons, List.mem_cons, h', false_or, ih]
        split <;> simp

theorem findValue?_insertEntry {α : Type u} (name other : String) (value : α)
    (entries : List (String × α)) :
    findValue? other (insertEntry name value entries)
      = if other = name then some value else findValue? other entries := by
  induction entries with
  | nil =>
      by_cases h : other = name
      · simp [insertEntry, findValue?, h]
      · have h' : ¬ name = other := fun e => h e.symm
        simp [insertEntry, findValue?, h, h']
  | cons entry rest ih =>
      obtain ⟨n, v⟩ := entry
      by_cases h : n = name
      · subst h
        by_cases ho : other = n
        · simp [insertEntry, findValue?, ho]
        · have ho' : ¬ n = other := fun e => ho e.symm
          simp [insertEntry, findValue?, ho, ho']
      · by_cases hn : n = other
        · subst hn
          simp [insertEntry, findValue?, h]
        · simp [insertEntry, findValue?, h, hn, ih]

theorem findValue?_isSome_iff {α : Type u} (name : String) (entries : List (String × α)) :
    (findValue? name entries).isSome = true ↔ name ∈ entries.map Prod.fst := by
  induction entries with
  | nil => simp [findValue?]
  | cons entry rest ih =>
      obtain ⟨n, v⟩ := entry
      by_cases h : n = name
      · simp [findValue?, h]
      · have h' : ¬ name = n := fun e => h e.symm
        simp [findValue?, h, h'] at ih ⊢
        exact ih

/-- A map whose entries stand in the order in which their names were first inserted. -/
structure OrderedMap (α : Type u) where
  /-- The entries in order. -/
  entries : List (String × α)
  /-- No name occurs twice. -/
  nodup_keys : (entries.map Prod.fst).Nodup
  deriving DecidableEq

namespace OrderedMap

variable {α : Type u}

/-- The map without entries. -/
def empty : OrderedMap α := ⟨[], List.nodup_nil⟩

instance : Inhabited (OrderedMap α) := ⟨empty⟩

/-- The names in order. -/
def keys (m : OrderedMap α) : List String := m.entries.map Prod.fst

/-- The values in the order of their names. -/
def values (m : OrderedMap α) : List α := m.entries.map Prod.snd

/-- The number of entries. -/
def size (m : OrderedMap α) : Nat := m.entries.length

/-- Whether there is no entry. -/
def isEmpty (m : OrderedMap α) : Bool := m.entries.isEmpty

/-- The value under `name`. -/
def get? (m : OrderedMap α) (name : String) : Option α := findValue? name m.entries

/-- Whether there is a value under `name`. -/
def contains (m : OrderedMap α) (name : String) : Bool := (m.get? name).isSome

/-- Puts `value` under `name`; a name that is there keeps its position. -/
def insert (m : OrderedMap α) (name : String) (value : α) : OrderedMap α where
  entries := insertEntry name value m.entries
  nodup_keys := by
    rw [keys_insertEntry]
    split
    · exact m.nodup_keys
    · rename_i h
      rw [List.nodup_append]
      refine ⟨m.nodup_keys, by simp, ?_⟩
      intro a ha b hb e
      simp only [List.mem_singleton] at hb
      exact h (hb ▸ e ▸ ha)

/-- Inserts the entries of a list one by one. -/
def insertAll (m : OrderedMap α) (entries : List (String × α)) : OrderedMap α :=
  entries.foldl (fun acc entry => acc.insert entry.1 entry.2) m

/-- Inserts the entries of `other` one by one: first position, last value. -/
def append (m other : OrderedMap α) : OrderedMap α :=
  m.insertAll other.entries

/-- The map with the given entries; a name given twice has the first position and the last
value. -/
def ofList (entries : List (String × α)) : OrderedMap α :=
  insertAll empty entries

/-- Whether two maps have the same values under the same names, in whatever order. -/
def same [BEq α] (m other : OrderedMap α) : Bool :=
  m.size == other.size && m.entries.all fun entry => other.get? entry.1 == some entry.2

theorem keys_insert (m : OrderedMap α) (name : String) (value : α) :
    (m.insert name value).keys = if name ∈ m.keys then m.keys else m.keys ++ [name] :=
  keys_insertEntry name value m.entries

theorem get?_insert (m : OrderedMap α) (name other : String) (value : α) :
    (m.insert name value).get? other = if other = name then some value else m.get? other :=
  findValue?_insertEntry name other value m.entries

@[simp] theorem insertAll_nil (m : OrderedMap α) : m.insertAll [] = m := rfl

@[simp] theorem insertAll_cons (m : OrderedMap α) (entry : String × α)
    (entries : List (String × α)) :
    m.insertAll (entry :: entries) = (m.insert entry.1 entry.2).insertAll entries := rfl

theorem insertAll_append (m : OrderedMap α) (a b : List (String × α)) :
    m.insertAll (a ++ b) = (m.insertAll a).insertAll b := by
  simp [insertAll, List.foldl_append]

end OrderedMap

end ApiTypes
