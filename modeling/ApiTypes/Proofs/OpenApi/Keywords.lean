import ApiTypes.OpenApi.Reading
import ApiTypes.Proofs.Document.Tidy
import Mathlib.Data.Int.Notation

/-!
# Keywords of a schema as they are written

The keywords of a schema are read from the readings of its members. These lemmas tell what a reader
of one keyword sees from the members as they are written: nothing where the keyword is absent or
null, and else the value of the keyword.
-/

set_option autoImplicit false

universe u

namespace ApiTypes

open Reading

variable {α : Type u} {rules : SchemaRules} {members : List (String × Value)} {name : String}

/-- What is written under a keyword; null counts as nothing. -/
def written? (members : List (String × Value)) (name : String) : Option Value :=
  match findValue? name members with
  | none => none
  | some .null => none
  | some v => some v

/-- The number that is written under a keyword. -/
def writtenNumber? (members : List (String × Value)) (name : String) : Option Number :=
  match findValue? name members with
  | some (.num n) => some n
  | _ => none

/-- The integer that is written under a keyword, without a point. -/
def writtenInteger? (members : List (String × Value)) (name : String) : Option ℤ :=
  match findValue? name members with
  | some (.num (.int n)) => some n
  | _ => none

/-- Whether a keyword is written as true. -/
def writtenFlag (members : List (String × Value)) (name : String) : Bool :=
  match findValue? name members with
  | some (.bool b) => b
  | _ => false

namespace Reading

@[simp] theorem value_of (rules : SchemaRules) (v : Value) : (of rules v).value = v := by
  cases v with
  | null => rfl
  | bool b => rfl
  | num n => rfl
  | str s => rfl
  | list items => rw [of]
  | object members => rw [of]

theorem findValue?_ofMembers (rules : SchemaRules) (members : List (String × Value))
    (name : String) :
    findValue? name (ofMembers rules members) = (findValue? name members).map (of rules) := by
  induction members with
  | nil => rfl
  | cons entry rest ih =>
      obtain ⟨n, v⟩ := entry
      by_cases h : n = name
      · simp [ofMembers, findValue?, h]
      · simp [ofMembers, findValue?, h, ih]

/-- A keyword that may be absent is not read where it is absent or null. -/
theorem optional?_ofMembers (read : Reading → Option α) :
    optional? (ofMembers rules members) name read
      = match written? members name with
        | none => some none
        | some v => (read (of rules v)).map some := by
  unfold optional? written?
  rw [findValue?_ofMembers]
  cases findValue? name members with
  | none => rfl
  | some v => cases v <;> simp [isNull]

/-- What is read under a keyword is read from what is written there. -/
theorem read_of_optional? {read : Reading → Option α} {found : Option α}
    (h : optional? (ofMembers rules members) name read = some found) :
    (written? members name = none ∧ found = none)
      ∨ ∃ v a, written? members name = some v ∧ read (of rules v) = some a ∧ found = some a := by
  rw [optional?_ofMembers] at h
  cases hwritten : written? members name with
  | none =>
      rw [hwritten] at h
      cases h
      exact .inl ⟨rfl, rfl⟩
  | some v =>
      rw [hwritten] at h
      obtain ⟨a, hread, rfl⟩ := Option.map_eq_some_iff.1 h
      exact .inr ⟨v, a, rfl, hread, rfl⟩

theorem findValue?_of_written? {v : Value} (h : written? members name = some v) :
    findValue? name members = some v := by
  unfold written? at h
  split at h
  · cases h
  · cases h
  · rename_i hfind
    rw [hfind]
    exact h

theorem findValue?_of_not_written (h : written? members name = none) :
    findValue? name members = none ∨ findValue? name members = some .null := by
  unfold written? at h
  split at h
  · exact .inl ‹_›
  · exact .inr ‹_›
  · cases h

/-- The number under a keyword is the one that is written. -/
theorem eq_writtenNumber? {found : Option Number}
    (h : optional? (ofMembers rules members) name number? = some found) :
    found = writtenNumber? members name := by
  unfold writtenNumber?
  rcases read_of_optional? h with ⟨hnone, rfl⟩ | ⟨v, n, hwritten, hread, rfl⟩
  · rcases findValue?_of_not_written hnone with hfind | hfind
    · rw [hfind]
    · rw [hfind]
  · rw [findValue?_of_written? hwritten]
    cases v with
    | num m => simpa [number?] using hread.symm
    | _ => simp [number?] at hread

/-- A truth value under a keyword is the one that is written. -/
theorem getD_eq_writtenFlag {found : Option Bool}
    (h : optional? (ofMembers rules members) name bool? = some found) :
    found.getD false = writtenFlag members name := by
  unfold writtenFlag
  rcases read_of_optional? h with ⟨hnone, rfl⟩ | ⟨v, b, hwritten, hread, rfl⟩
  · rcases findValue?_of_not_written hnone with hfind | hfind
    · rw [hfind]
      rfl
    · rw [hfind]
      rfl
  · rw [findValue?_of_written? hwritten]
    cases v with
    | bool c => simpa [bool?, Value.bool?] using hread.symm
    | _ => simp [bool?, Value.bool?] at hread

/-- The values under a keyword are those of the list that is written. -/
theorem mem_written_of_values? {found : Option (List Value)}
    (h : optional? (ofMembers rules members) name values? = some found) {v : Value}
    (hv : v ∈ found.getD []) : ∃ items, written? members name = some (.list items) ∧ v ∈ items := by
  rcases read_of_optional? h with ⟨-, rfl⟩ | ⟨w, values, hwritten, hread, rfl⟩
  · cases hv
  · rw [values?, value_of] at hread
    cases w with
    | list items =>
        obtain ⟨item, hitem, hsome⟩ := exists_of_mem_mapM_option hread hv
        cases hsome
        exact ⟨items, hwritten, hitem⟩
    | _ => cases hread

end Reading

end ApiTypes
