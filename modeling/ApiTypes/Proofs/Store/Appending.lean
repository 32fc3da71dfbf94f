import ApiTypes.Proofs.Store.Distinct
import ApiTypes.Proofs.Store.Renaming
import Mathlib.Data.List.Induction

/-!
# Appending ordered maps

A map is given by its names in order and the value under each (`OrderedMap.ext_get?`). What is
appended to it adds the names that are new and takes over the values
(`OrderedMap.keys_append`, `OrderedMap.get?_append`), so that appending is associative. In a map of
entries in which names come again, each name has its first position and its last value
(`OrderedMap.keys_ofList`, `OrderedMap.get?_ofList`), and the map of a part of the entries may be
appended to that of the entries before (`OrderedMap.ofList_append`). Maps that are appended one
after the other are joined (`OrderedMap.joined`). The last one with a name has the say about its
value, and one that comes a second time adds no name.
-/

set_option autoImplicit false

universe u v

namespace ApiTypes

/-! ## Lists without repetitions -/

/-- Leaving elements out and leaving out repetitions commute. -/
theorem eraseDups_filter {α : Type u} [BEq α] [LawfulBEq α] (p : α → Bool) (l : List α) :
    (l.filter p).eraseDups = l.eraseDups.filter p :=
  eraseDupsBy_filter (fun _ _ h => congrArg p (eq_of_beq h)) l

namespace OrderedMap

variable {α : Type u}

theorem mem_keys_iff {m : OrderedMap α} {name : String} :
    name ∈ m.keys ↔ (m.get? name).isSome = true :=
  (findValue?_isSome_iff name m.entries).symm

/-- The entries are the names, each with its value. -/
theorem entries_eq_of_get? : ∀ {entries other : List (String × α)},
    entries.map Prod.fst = other.map Prod.fst → (entries.map Prod.fst).Nodup →
    (∀ name, findValue? name entries = findValue? name other) → entries = other
  | [], [], _, _, _ => rfl
  | [], _ :: _, hkeys, _, _ => by cases hkeys
  | _ :: _, [], hkeys, _, _ => by cases hkeys
  | (n, a) :: entries, (n', a') :: other, hkeys, hnodup, hget => by
      obtain ⟨rfl, hrest⟩ := List.cons.inj hkeys
      rw [List.map_cons, List.nodup_cons] at hnodup
      have ha : some a = some a' := by
        have h := hget n
        rwa [findValue?, if_pos rfl, findValue?, if_pos rfl] at h
      have htail : entries = other := by
        refine entries_eq_of_get? hrest hnodup.2 fun name => ?_
        by_cases hname : n = name
        · -- The first name does not come again.
          rw [← hname]
          have hnone : ∀ l : List (String × α), n ∉ l.map Prod.fst → findValue? n l = none := by
            intro l hl
            rw [← findValue?_isSome_iff, Bool.not_eq_true, Option.isSome_eq_false_iff,
              Option.isNone_iff_eq_none] at hl
            exact hl
          rw [hnone entries hnodup.1, hnone other (hrest ▸ hnodup.1)]
        · have h := hget name
          rwa [findValue?, if_neg hname, findValue?, if_neg hname] at h
      rw [Option.some.inj ha, htail]

/-- **A map is given by its names in order and the value under each.** -/
theorem ext_get? {m n : OrderedMap α} (hkeys : m.keys = n.keys)
    (hget : ∀ name, m.get? name = n.get? name) : m = n :=
  ext_entries (entries_eq_of_get? hkeys m.nodup_keys hget)

/-! ## What appending does -/

theorem keys_insertAll (m : OrderedMap α) (entries : List (String × α))
    (hnodup : (entries.map Prod.fst).Nodup) :
    (m.insertAll entries).keys
      = m.keys ++ (entries.map Prod.fst).filter fun name => !m.keys.contains name := by
  induction entries generalizing m with
  | nil => simp
  | cons entry rest ih =>
      rw [List.map_cons, List.nodup_cons] at hnodup
      rw [insertAll_cons, ih _ hnodup.2, keys_insert, List.map_cons]
      by_cases hmem : entry.1 ∈ m.keys
      · rw [if_pos hmem, List.filter_cons_of_neg (by simpa using hmem)]
      · have hrest : (rest.map Prod.fst).filter (fun name => !(m.keys ++ [entry.1]).contains name)
            = (rest.map Prod.fst).filter fun name => !m.keys.contains name := by
          refine List.filter_congr fun name hname => ?_
          have hne : ¬ name = entry.1 := fun e => hnodup.1 (e ▸ hname)
          simp [hne]
        rw [if_neg hmem, List.filter_cons_of_pos (by simpa using hmem), hrest, List.append_assoc]
        rfl

theorem get?_insertAll (m : OrderedMap α) (entries : List (String × α))
    (hnodup : (entries.map Prod.fst).Nodup) (name : String) :
    (m.insertAll entries).get? name = (findValue? name entries).or (m.get? name) := by
  induction entries generalizing m with
  | nil => rfl
  | cons entry rest ih =>
      obtain ⟨n, a⟩ := entry
      rw [List.map_cons, List.nodup_cons] at hnodup
      rw [insertAll_cons, ih _ hnodup.2, get?_insert, findValue?]
      by_cases hname : n = name
      · have hnone : findValue? name rest = none := by
          rw [← Option.isNone_iff_eq_none, ← Option.isSome_eq_false_iff, ← Bool.not_eq_true,
            findValue?_isSome_iff]
          exact hname ▸ hnodup.1
        rw [if_pos hname, if_pos hname.symm, hnone]
        rfl
      · rw [if_neg hname, if_neg fun e => hname e.symm]

theorem ofList_append_singleton (entries : List (String × α)) (entry : String × α) :
    ofList (entries ++ [entry]) = (ofList entries).insert entry.1 entry.2 := by
  rw [ofList, insertAll_append]
  rfl

/-- A name that is given more than once keeps its first position. -/
theorem keys_ofList (entries : List (String × α)) :
    (ofList entries).keys = (entries.map Prod.fst).eraseDups := by
  induction entries using List.reverseRecOn with
  | nil => rfl
  | append_singleton entries entry ih =>
      rw [ofList_append_singleton, keys_insert, ih, List.map_append, List.map_singleton,
        eraseDups_append_singleton]

/-- A name that is given more than once takes its last value. -/
theorem get?_ofList (entries : List (String × α)) (name : String) :
    (ofList entries).get? name = findValue? name entries.reverse := by
  induction entries using List.reverseRecOn with
  | nil => rfl
  | append_singleton entries entry ih =>
      rw [ofList_append_singleton, get?_insert, ih, List.reverse_concat, findValue?]
      by_cases hname : name = entry.1
      · rw [if_pos hname, if_pos hname.symm]
      · rw [if_neg hname, if_neg fun e => hname e.symm]

/-- Appending keeps the names that are there and adds the others in their order. -/
theorem keys_append (m n : OrderedMap α) :
    (m.append n).keys = m.keys ++ n.keys.filter fun name => !m.keys.contains name :=
  keys_insertAll m n.entries n.nodup_keys

/-- Appending takes over the values. -/
theorem get?_append (m n : OrderedMap α) (name : String) :
    (m.append n).get? name = (n.get? name).or (m.get? name) :=
  get?_insertAll m n.entries n.nodup_keys name

theorem mem_keys_append {m n : OrderedMap α} {name : String} :
    name ∈ (m.append n).keys ↔ name ∈ m.keys ∨ name ∈ n.keys := by
  rw [keys_append, List.mem_append, List.mem_filter]
  by_cases hname : name ∈ m.keys
  · simp [hname]
  · simp [hname]

@[simp] theorem append_empty (m : OrderedMap α) : m.append empty = m := rfl

@[simp] theorem empty_append (m : OrderedMap α) : empty.append m = m := by
  refine ext_get? ?_ fun name => ?_
  · rw [keys_append]
    exact List.filter_eq_self.mpr fun _ _ => rfl
  · rw [get?_append]
    exact Option.or_none

/-- Appending is associative, to the order of the names. -/
theorem append_append (m n k : OrderedMap α) :
    (m.append n).append k = m.append (n.append k) := by
  refine ext_get? ?_ fun name => ?_
  · rw [keys_append, keys_append, keys_append, keys_append, List.filter_append, List.append_assoc,
      List.filter_filter]
    congr 2
    refine List.filter_congr fun name _ => ?_
    by_cases hm : name ∈ m.keys
    · simp [hm]
    · simp [hm]
  · rw [get?_append, get?_append, get?_append, get?_append, Option.or_assoc]

/-- Inserting entries one by one is appending the map of these entries. -/
theorem insertAll_eq_append (m : OrderedMap α) (entries : List (String × α)) :
    m.insertAll entries = m.append (ofList entries) := by
  induction entries using List.reverseRecOn with
  | nil => rfl
  | append_singleton entries entry ih =>
      have hone : ∀ k : OrderedMap α, k.insert entry.1 entry.2 = k.append (ofList [entry]) :=
        fun _ => rfl
      rw [insertAll_append, insertAll_cons, insertAll_nil, ih, hone, append_append, ← hone,
        ofList_append_singleton]

/-- The map of entries is that of the first ones, that of the others appended. -/
theorem ofList_append (before after : List (String × α)) :
    ofList (before ++ after) = (ofList before).append (ofList after) := by
  rw [ofList, insertAll_append, insertAll_eq_append]
  rfl

/-- **Appending keeps first positions and takes last values.** The names of the first map come
first, then those of the second one that are new, each in their order; a name has the value of the
second map if it is there, else that of the first. Appending is associative. A map of entries has
each name at its first position with its last value, and wherever the entries are parted, it is the
map of the first part with that of the second one appended. -/
theorem append_merges (m n k : OrderedMap α) :
    (m.append n).keys = m.keys ++ n.keys.filter (fun name => !m.keys.contains name) ∧
    (∀ name, (m.append n).get? name = if name ∈ n.keys then n.get? name else m.get? name) ∧
    (m.append n).append k = m.append (n.append k) ∧
    (∀ entries : List (String × α), (ofList entries).keys = (entries.map Prod.fst).eraseDups ∧
      ∀ name, (ofList entries).get? name = findValue? name entries.reverse) ∧
    ∀ before after : List (String × α),
      ofList (before ++ after) = (ofList before).append (ofList after) := by
  refine ⟨keys_append m n, fun name => ?_, append_append m n k,
    fun entries => ⟨keys_ofList entries, get?_ofList entries⟩, ofList_append⟩
  rw [get?_append]
  by_cases hname : name ∈ n.keys
  · obtain ⟨a, ha⟩ := Option.isSome_iff_exists.mp (mem_keys_iff.mp hname)
    rw [if_pos hname, ha, Option.some_or]
  · have hnone : n.get? name = none := by
      rwa [mem_keys_iff, Bool.not_eq_true, Option.isSome_eq_false_iff,
        Option.isNone_iff_eq_none] at hname
    rw [if_neg hname, hnone, Option.none_or]

/-- A name that is in both maps stays in its place and takes the value of the second one. -/
example : ((ofList [("x", 0), ("a", 1)]).append (ofList [("b", 2), ("x", 3)])).entries
    = [("x", 3), ("a", 1), ("b", 2)] := by
  decide

/-- Names that are there already are not added. -/
theorem keys_append_of_subset {m n : OrderedMap α} (h : n.keys ⊆ m.keys) :
    (m.append n).keys = m.keys := by
  rw [keys_append, List.filter_eq_nil_iff.mpr, List.append_nil]
  intro name hname
  simpa using h hname

/-! ## Maps one after the other -/

/-- Maps appended one after the other. -/
def joined (ms : List (OrderedMap α)) : OrderedMap α := ms.foldl append empty

@[simp] theorem joined_nil : joined ([] : List (OrderedMap α)) = empty := rfl

theorem foldl_append_eq (ms : List (OrderedMap α)) (m : OrderedMap α) :
    ms.foldl append m = m.append (joined ms) := by
  induction ms generalizing m with
  | nil => rfl
  | cons n ms ih =>
      rw [joined, List.foldl_cons, List.foldl_cons, ih, ih (empty.append n), empty_append,
        append_append]

@[simp] theorem joined_cons (m : OrderedMap α) (ms : List (OrderedMap α)) :
    joined (m :: ms) = m.append (joined ms) := by
  rw [joined, List.foldl_cons, empty_append, foldl_append_eq]

theorem joined_append (ms ns : List (OrderedMap α)) :
    joined (ms ++ ns) = (joined ms).append (joined ns) := by
  rw [joined, List.foldl_append, foldl_append_eq]
  rfl

section Repeated

variable {β : Type v} (own : β → OrderedMap α)

/-- Joining lists of maps is joining what each list becomes. -/
theorem joined_flatMap {γ : Type v} (below : γ → List β) (l : List γ) :
    joined ((l.flatMap below).map own) = joined (l.map fun c => joined ((below c).map own)) := by
  induction l with
  | nil => rfl
  | cons c l ih =>
      rw [List.flatMap_cons, List.map_append, joined_append, List.map_cons, joined_cons, ih]

theorem mem_keys_joined {l : List β} {name : String} :
    name ∈ (joined (l.map own)).keys ↔ ∃ b ∈ l, name ∈ (own b).keys := by
  induction l with
  | nil => exact ⟨nofun, fun ⟨_, hb, _⟩ => nomatch hb⟩
  | cons b l ih =>
      rw [List.map_cons, joined_cons, mem_keys_append, ih]
      simp

/-- The values of maps that are joined are values of one of them. -/
theorem mem_values_joined {own : β → OrderedMap α} {l : List β} {a : α}
    (h : a ∈ (joined (l.map own)).values) : ∃ b ∈ l, a ∈ (own b).values := by
  induction l with
  | nil => cases h
  | cons b l ih =>
      rw [List.map_cons, joined_cons] at h
      obtain ⟨entry, hentry, rfl⟩ := List.mem_map.mp h
      rcases mem_entries_insertAll hentry with hentry | hentry
      · exact ⟨b, List.mem_cons_self, List.mem_map_of_mem hentry⟩
      · obtain ⟨c, hc, hvalue⟩ := ih (List.mem_map_of_mem hentry)
        exact ⟨c, List.mem_cons_of_mem b hc, hvalue⟩

/-- The names of maps that are joined depend on the names of each alone. -/
theorem keys_joined_congr {own own' : β → OrderedMap α} {l : List β}
    (h : ∀ b ∈ l, (own b).keys = (own' b).keys) :
    (joined (l.map own)).keys = (joined (l.map own')).keys := by
  induction l with
  | nil => rfl
  | cons b l ih =>
      rw [List.map_cons, List.map_cons, joined_cons, joined_cons, keys_append, keys_append,
        h b List.mem_cons_self, ih fun c hc => h c (List.mem_cons_of_mem b hc)]

/-- **A map that comes again adds no name.** -/
theorem keys_joined_eraseDups [BEq β] [LawfulBEq β] (l : List β) :
    (joined (l.eraseDups.map own)).keys = (joined (l.map own)).keys := by
  induction l using List.reverseRecOn with
  | nil => rfl
  | append_singleton l b ih =>
      rw [List.eraseDups_append, List.map_append, List.map_append, joined_append, joined_append,
        List.removeAll, List.filter_cons, List.filter_nil]
      by_cases hb : b ∈ l
      · have hsub : (joined ([b].map own)).keys ⊆ (joined (l.map own)).keys := by
          intro name hname
          rw [mem_keys_joined] at hname ⊢
          obtain ⟨c, hc, hname⟩ := hname
          rw [List.mem_singleton.mp hc] at hname
          exact ⟨b, hb, hname⟩
        rw [if_neg (by simpa using hb), List.eraseDups_nil, List.map_nil, joined_nil, append_empty,
          ih, keys_append_of_subset hsub]
      · rw [if_pos (by simpa using hb), List.eraseDups_cons, List.filter_nil, List.eraseDups_nil,
          keys_append, keys_append, ih]

/-- Maps without a name have no say about its value. -/
theorem get?_joined_filter {p : β → Bool} {l : List β} {name : String}
    (h : ∀ b ∈ l, p b = false → (own b).get? name = none) :
    (joined ((l.filter p).map own)).get? name = (joined (l.map own)).get? name := by
  induction l with
  | nil => rfl
  | cons b l ih =>
      have hrest := ih fun c hc => h c (List.mem_cons_of_mem b hc)
      cases hp : p b with
      | true =>
          rw [List.filter_cons_of_pos hp, List.map_cons, List.map_cons, joined_cons, joined_cons,
            get?_append, get?_append, hrest]
      | false =>
          rw [List.filter_cons_of_neg (by rw [hp]; decide), hrest, List.map_cons, joined_cons,
            get?_append, h b List.mem_cons_self hp, Option.or_none]

end Repeated

end OrderedMap

end ApiTypes
