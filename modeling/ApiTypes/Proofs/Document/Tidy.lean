import ApiTypes.Document.Record
import ApiTypes.Document.Yaml.Node
import ApiTypes.Proofs.Store.Renaming
import Mathlib.Data.List.Basic

/-!
# Tidy documents

The members of an object have different names, however often the text gives a name. A value is
tidy if that holds of every object in it, which can be computed (`Value.isTidy_iff`); the value of a
document is tidy (`Yaml.tidy_of_read?`), and what is read from the members of a tidy object has
different names again.
-/

set_option autoImplicit false

universe u

namespace ApiTypes

/-- No object in a value has two members of one name. -/
inductive Value.Tidy : Value → Prop
  | null : Tidy .null
  | bool (b : Bool) : Tidy (.bool b)
  | num (n : Number) : Tidy (.num n)
  | str (s : String) : Tidy (.str s)
  | list {items : List Value} : (∀ v ∈ items, Tidy v) → Tidy (.list items)
  | object {members : List (String × Value)} : (members.map Prod.fst).Nodup →
      (∀ entry ∈ members, Tidy entry.2) → Tidy (.object members)

namespace Value

mutual

/-- Whether no object in a value has two members of one name. -/
def isTidy : Value → Bool
  | list items => areTidy items
  | object members => decide (members.map Prod.fst).Nodup && membersTidy members
  | _ => true

/-- Whether the items of a list are tidy. -/
def areTidy : List Value → Bool
  | [] => true
  | v :: rest => isTidy v && areTidy rest

/-- Whether the members of an object are tidy. -/
def membersTidy : List (String × Value) → Bool
  | [] => true
  | (_, v) :: rest => isTidy v && membersTidy rest

end

mutual

theorem isTidy_iff : (v : Value) → (isTidy v = true ↔ v.Tidy)
  | null => iff_of_true rfl .null
  | bool b => iff_of_true rfl (.bool b)
  | num n => iff_of_true rfl (.num n)
  | str s => iff_of_true rfl (.str s)
  | list items => by
      rw [isTidy, areTidy_iff items]
      refine ⟨.list, fun h => ?_⟩
      cases h with
      | list hitems => exact hitems
  | object members => by
      rw [isTidy, Bool.and_eq_true, decide_eq_true_iff, membersTidy_iff members]
      refine ⟨fun h => .object h.1 h.2, fun h => ?_⟩
      cases h with
      | object hnodup hmembers => exact ⟨hnodup, hmembers⟩

theorem areTidy_iff : (items : List Value) → (areTidy items = true ↔ ∀ v ∈ items, v.Tidy)
  | [] => iff_of_true rfl nofun
  | v :: rest => by
      rw [areTidy, Bool.and_eq_true, isTidy_iff v, areTidy_iff rest, List.forall_mem_cons]

theorem membersTidy_iff : (members : List (String × Value)) →
    (membersTidy members = true ↔ ∀ entry ∈ members, entry.2.Tidy)
  | [] => iff_of_true rfl nofun
  | (name, v) :: rest => by
      rw [membersTidy, Bool.and_eq_true, isTidy_iff v, membersTidy_iff rest, List.forall_mem_cons]

end

instance : DecidablePred Tidy := fun v => decidable_of_iff _ (isTidy_iff v)

end Value

/-! ## What is read from tidy values -/

/-- What a successful loop reads is read by one of its steps. -/
theorem exists_of_mem_mapM_option {α β : Type u} {f : α → Option β} {l : List α} {found : List β}
    (h : l.mapM f = some found) {b : β} (hb : b ∈ found) : ∃ a ∈ l, f a = some b := by
  induction l generalizing found with
  | nil =>
      cases h
      cases hb
  | cons a rest ih =>
      rw [List.mapM_cons] at h
      simp only [Option.bind_eq_bind, Option.bind_eq_some_iff] at h
      obtain ⟨first, ha, others, hr, heq⟩ := h
      cases heq
      rcases List.mem_cons.mp hb with rfl | hmem
      · exact ⟨a, List.mem_cons_self, ha⟩
      · obtain ⟨a', ha', hf⟩ := ih hr hmem
        exact ⟨a', List.mem_cons_of_mem _ ha', hf⟩

/-- Reading the values of members keeps their names. -/
theorem map_fst_mapM {α β : Type} {read : α → Option β} {members : List (String × α)}
    {found : List (String × β)}
    (h : (members.mapM fun entry => (read entry.2).map fun b => (entry.1, b)) = some found) :
    found.map Prod.fst = members.map Prod.fst := by
  induction members generalizing found with
  | nil =>
      cases h
      rfl
  | cons entry rest ih =>
      rw [List.mapM_cons] at h
      simp only [Option.bind_eq_bind, Option.bind_eq_some_iff, Option.map_eq_some_iff] at h
      obtain ⟨first, ⟨b, _, rfl⟩, others, hr, heq⟩ := h
      cases heq
      rw [List.map_cons, List.map_cons, ih hr]

namespace Value

variable {α : Type} {read : Value → Option α} {v : Value}

/-- The members of a tidy object are read under different names. -/
theorem Tidy.nodup_mapOf? (hv : v.Tidy) {found : List (String × α)}
    (h : v.mapOf? read = some found) : (found.map Prod.fst).Nodup := by
  cases hv with
  | object hnodup _ =>
      rw [map_fst_mapM h]
      exact hnodup
  | _ => cases h

/-- What is read under a name is read from a tidy value. -/
theorem Tidy.exists_of_mem_mapOf? (hv : v.Tidy) {found : List (String × α)}
    (h : v.mapOf? read = some found) {entry : String × α} (hmem : entry ∈ found) :
    ∃ w : Value, w.Tidy ∧ read w = some entry.2 := by
  cases hv with
  | object hnodup hmembers =>
      obtain ⟨⟨name, w⟩, hw, hread⟩ := exists_of_mem_mapM_option h hmem
      simp only [Option.map_eq_some_iff] at hread
      obtain ⟨a, ha, rfl⟩ := hread
      exact ⟨w, hmembers _ hw, ha⟩
  | _ => cases h

/-- What is read from a list is read from tidy values. -/
theorem Tidy.exists_of_mem_listOf? (hv : v.Tidy) {found : List α}
    (h : v.listOf? read = some found) {a : α} (hmem : a ∈ found) :
    ∃ w : Value, w.Tidy ∧ read w = some a := by
  cases hv with
  | list hitems =>
      obtain ⟨w, hw, hread⟩ := exists_of_mem_mapM_option h hmem
      exact ⟨w, hitems w hw, hread⟩
  | _ => cases h

theorem mem_of_findValue?' {name : String} {members : List (String × Value)} {w : Value}
    (h : findValue? name members = some w) : ∃ entry ∈ members, entry.2 = w := by
  induction members with
  | nil => cases h
  | cons entry rest ih =>
      obtain ⟨n, x⟩ := entry
      by_cases hn : n = name
      · have hx : x = w := by simpa [findValue?, hn] using h
        exact ⟨(n, x), List.mem_cons_self, hx⟩
      · have hr : findValue? name rest = some w := by simpa [findValue?, hn] using h
        obtain ⟨e, he, hew⟩ := ih hr
        exact ⟨e, List.mem_cons_of_mem _ he, hew⟩

/-- A member of a tidy object is tidy. -/
theorem Tidy.get? (hv : v.Tidy) {name : String} {w : Value} (h : v.get? name = some w) :
    w.Tidy := by
  cases hv with
  | object _ hmembers =>
      obtain ⟨entry, hmem, rfl⟩ := mem_of_findValue?' h
      exact hmembers entry hmem
  | _ => cases h

end Value

namespace Record

variable {α : Type} {r : Record} {name : String} {read : Value → Option α}

/-- What is written for a field of a tidy record is tidy. -/
theorem tidy_of_entry (hr : r.value.Tidy) {v : Value} (h : r.entry name = .present v) :
    v.Tidy := by
  unfold entry at h
  cases hv : r.value with
  | object members =>
      rw [hv] at h hr
      cases hf : findValue? name members with
      | none => simp [hf] at h
      | some w =>
          simp only [hf] at h
          cases h
          exact hr.get? hf
  | list items =>
      rw [hv] at h hr
      cases hi : items[r.names.idxOf name]? with
      | none => simp [hi] at h
      | some w =>
          simp only [hi] at h
          cases h
          cases hr with
          | list hitems => exact hitems _ (List.mem_of_getElem? hi)
  | _ =>
      rw [hv] at h
      cases h

theorem exists_of_optional? (hr : r.value.Tidy) {a : α}
    (h : r.optional? name read = some (some a)) : ∃ v : Value, v.Tidy ∧ read v = some a := by
  unfold optional? at h
  split at h
  · cases h
  · cases h
  · cases h
  · rename_i v _ hentry
    simp only [Option.map_eq_some_iff, Option.some.injEq] at h
    obtain ⟨b, hb, rfl⟩ := h
    exact ⟨v, tidy_of_entry hr hentry, hb⟩

theorem exists_of_orElse? (hr : r.value.Tidy) {default a : α}
    (h : r.orElse? name default read = some a) :
    a = default ∨ ∃ v : Value, v.Tidy ∧ read v = some a := by
  unfold orElse? at h
  split at h
  · rename_i v hentry
    exact Or.inr ⟨v, tidy_of_entry hr hentry, h⟩
  · cases h
    exact Or.inl rfl

theorem exists_of_required? (hr : r.value.Tidy) {a : α} (h : r.required? name read = some a) :
    ∃ v : Value, v.Tidy ∧ read v = some a := by
  unfold required? at h
  split at h
  · rename_i v hentry
    exact ⟨v, tidy_of_entry hr hentry, h⟩
  · cases h

end Record

theorem Value.Tidy.record? {v : Value} (hv : v.Tidy) {names : List String} {r : Record}
    (h : v.record? names = some r) : r.value.Tidy := by
  unfold Value.record? at h
  split at h
  · cases h
    exact hv
  · split at h
    · cases h
      exact hv
    · cases h
  · cases h

/-! ## The value of a document -/

namespace Yaml

theorem tidy_of_integerValue? {n : Int} {v : Value} (h : integerValue? n = some v) : v.Tidy := by
  unfold integerValue? at h
  split at h
  · cases h
    exact .num _
  · cases h

theorem tidy_of_plainValue? {text : String} {v : Value} (h : plainValue? text = some v) :
    v.Tidy := by
  simp only [plainValue?] at h
  split at h
  · cases h
    exact .null
  · cases hb : bool? text with
    | some b =>
        rw [hb] at h
        cases h
        exact .bool b
    | none =>
        rw [hb] at h
        cases hi : integer? text.toList with
        | some n =>
            simp only [hi] at h
            split at h
            · exact tidy_of_integerValue? h
            · split at h
              · cases h
                exact .num _
              · cases h
                exact .str _
        | none =>
            simp only [hi] at h
            split at h
            · cases h
              exact .str _
            · split at h
              · cases h
                exact .null
              · split at h
                · cases h
                  exact .num _
                · cases h
                  exact .str _

namespace Node

theorem tidy_of_scalarValue? {text : String} {plain : Bool} {tag : Option String} {v : Value}
    (h : scalarValue? text plain tag = some v) : v.Tidy := by
  unfold scalarValue? at h
  split at h
  · split at h
    · exact tidy_of_plainValue? h
    · cases h
      exact .str _
  · obtain ⟨b, _, rfl⟩ := Option.map_eq_some_iff.mp h
    exact .bool b
  · obtain ⟨n, _, hn⟩ := Option.bind_eq_some_iff.mp h
    exact tidy_of_integerValue? hn
  · split at h
    · cases h
      exact .null
    · obtain ⟨x, _, rfl⟩ := Option.map_eq_some_iff.mp h
      exact .num _
  · split at h
    · cases h
      exact .null
    · cases h
  · split at h
    · cases h
    · cases h
      exact .str _

theorem tidy_ofMembers {members : List (String × Value)} (h : ∀ entry ∈ members, entry.2.Tidy) :
    (Value.ofMembers members).Tidy := by
  exact .object (OrderedMap.ofList members).nodup_keys fun entry hmem =>
    h entry (OrderedMap.mem_entries_ofList hmem)

mutual

theorem tidy_of_value? : ∀ (n : Node) {v : Value}, n.value? = some v → v.Tidy
  | scalar _ _ _, _, h => tidy_of_scalarValue? h
  | list items tag, v, h => by
      rw [value?] at h
      split at h
      · cases h
      · obtain ⟨values, hvalues, rfl⟩ := Option.map_eq_some_iff.mp h
        exact .list (tidy_of_valueItems? items hvalues)
  | map members tag, v, h => by
      rw [value?] at h
      split at h
      · cases h
      · obtain ⟨values, hvalues, rfl⟩ := Option.map_eq_some_iff.mp h
        exact tidy_ofMembers (tidy_of_valueMembers? members hvalues)
  | aliasOf target _, v, h => by
      rw [value?] at h
      exact tidy_of_value? target h

theorem tidy_of_valueItems? : ∀ (items : List Node) {values : List Value},
    valueItems? items = some values → ∀ v ∈ values, v.Tidy
  | [], values, h => by
      cases h
      intro v hv
      cases hv
  | item :: rest, values, h => by
      rw [valueItems?] at h
      simp only [Option.bind_eq_bind, Option.bind_eq_some_iff] at h
      obtain ⟨first, hfirst, others, hothers, heq⟩ := h
      cases heq
      intro v hv
      rcases List.mem_cons.mp hv with rfl | hmem
      · exact tidy_of_value? item hfirst
      · exact tidy_of_valueItems? rest hothers v hmem

theorem tidy_of_valueMembers? : ∀ (members : List (Node × Node)) {values : List (String × Value)},
    valueMembers? members = some values → ∀ entry ∈ values, entry.2.Tidy
  | [], values, h => by
      cases h
      intro entry hentry
      cases hentry
  | (key, value) :: rest, values, h => by
      rw [valueMembers?] at h
      simp only [Option.bind_eq_bind, Option.bind_eq_some_iff] at h
      obtain ⟨name, _, first, hfirst, others, hothers, heq⟩ := h
      cases heq
      intro entry hentry
      rcases List.mem_cons.mp hentry with rfl | hmem
      · exact tidy_of_value? value hfirst
      · exact tidy_of_valueMembers? rest hothers entry hmem

end

end Node

/-- **The value of a document is tidy.** -/
theorem tidy_of_read? {text : String} {v : Value} (h : read? text = some v) : v.Tidy := by
  unfold read? at h
  simp only [Option.bind_eq_bind, Option.bind_eq_some_iff] at h
  obtain ⟨tokens, _, h⟩ := h
  split at h
  · cases h
    exact .null
  · obtain ⟨node, _, h⟩ := Option.bind_eq_some_iff.mp h
    split at h
    · exact Node.tidy_of_value? node h
    · cases h

end Yaml

end ApiTypes
