import ApiTypes.OpenApi.Load
import ApiTypes.Proofs.Document.Tidy
import ApiTypes.Proofs.OpenApi.Tidy

/-!
# Loaded descriptions are tidy

The names in a description are those of members of objects in the document, so that a description
that is read from a text is tidy, whatever its version (`Description.tidy_of_load`).
-/

set_option autoImplicit false

namespace ApiTypes

/-! ## Readings -/

/-- Schemas under different names that are tidy. -/
structure TidyMembers (members : List (String × Schema)) : Prop where
  /-- The names are different. -/
  nodup : (members.map Prod.fst).Nodup
  /-- The schemas are tidy. -/
  schemas : ∀ entry ∈ members, entry.2.Tidy

namespace Reading

/-- The schemas in the readings of a value are tidy. -/
structure Tidy (r : Reading) : Prop where
  /-- As a schema. -/
  schema : ∀ s ∈ r.schema, s.Tidy
  /-- As a list. -/
  list : ∀ l ∈ r.list, ∀ s ∈ l, s.Tidy
  /-- As schemas under names. -/
  map : ∀ m ∈ r.map, TidyMembers m

/-- Members of an object whose readings are tidy. -/
def AllTidy (members : List (String × Reading)) : Prop := ∀ entry ∈ members, entry.2.Tidy

/-- A version of the format makes tidy schemas. -/
def RulesTidy (rules : SchemaRules) : Prop :=
  ∀ members, AllTidy members → ∀ s ∈ rules.inline members, s.Tidy

theorem map_fst_ofMembers (rules : SchemaRules) (members : List (String × Value)) :
    (ofMembers rules members).map Prod.fst = members.map Prod.fst := by
  induction members with
  | nil => rfl
  | cons entry rest ih =>
      obtain ⟨name, v⟩ := entry
      rw [ofMembers, List.map_cons, List.map_cons, ih]

theorem tidy_ofScalar (v : Value) : (ofScalar v).Tidy where
  schema _ h := by cases h
  list _ h := by cases h
  map _ h := by cases h

section Of

variable {rules : SchemaRules}

theorem tidy_list {v : Value} {readings : List Reading} (h : ∀ r ∈ readings, r.Tidy) :
    Tidy ⟨v, (rules.reference v).map .reference, none, readings.mapM (·.schema),
      readings.mapM (·.inline), none⟩ where
  schema s hs := by
    obtain ⟨target, _, rfl⟩ := Option.map_eq_some_iff.mp hs
    exact .reference target
  list l hl s hs := by
    obtain ⟨r, hr, hread⟩ := exists_of_mem_mapM_option hl hs
    exact (h r hr).schema s hread
  map _ h := by cases h

theorem tidy_object (hrules : RulesTidy rules) {v : Value} {readings : List (String × Reading)}
    (hnodup : (readings.map Prod.fst).Nodup) (h : AllTidy readings) :
    Tidy ⟨v, ((rules.reference v).map .reference).or (rules.inline readings),
      rules.inline readings, none, none,
      readings.mapM fun (name, r) => r.schema.map fun s => (name, s)⟩ where
  schema s hs := by
    rcases Option.or_eq_some_iff.mp hs with href | ⟨_, hinline⟩
    · obtain ⟨target, _, rfl⟩ := Option.map_eq_some_iff.mp href
      exact .reference target
    · exact hrules readings h s hinline
  list _ h := by cases h
  map m hm := by
    refine ⟨?_, fun entry hentry => ?_⟩
    · rw [map_fst_mapM hm]
      exact hnodup
    · obtain ⟨⟨name, r⟩, hr, hread⟩ := exists_of_mem_mapM_option hm hentry
      obtain ⟨s, hs, rfl⟩ := Option.map_eq_some_iff.mp hread
      exact (h _ hr).schema s hs

mutual

/-- The readings of a tidy value are tidy. -/
theorem tidy_of (hrules : RulesTidy rules) : ∀ v : Value, v.Tidy → (of rules v).Tidy
  | .null, _ => tidy_ofScalar _
  | .bool _, _ => tidy_ofScalar _
  | .num _, _ => tidy_ofScalar _
  | .str _, _ => tidy_ofScalar _
  | .list items, hv => by
      cases hv with
      | list hitems =>
          rw [of]
          exact tidy_list (tidy_ofItems hrules items hitems)
  | .object members, hv => by
      cases hv with
      | object hnodup hmembers =>
          rw [of]
          refine tidy_object hrules ?_ (tidy_ofMembers hrules members hmembers)
          rw [map_fst_ofMembers]
          exact hnodup

theorem tidy_ofItems (hrules : RulesTidy rules) : ∀ items : List Value, (∀ v ∈ items, v.Tidy) →
    ∀ r ∈ ofItems rules items, r.Tidy
  | [], _, r, hr => by cases hr
  | item :: rest, h, r, hr => by
      rw [ofItems] at hr
      rcases List.mem_cons.mp hr with rfl | hmem
      · exact tidy_of hrules item (h item List.mem_cons_self)
      · exact tidy_ofItems hrules rest (fun v hv => h v (List.mem_cons_of_mem _ hv)) r hmem

theorem tidy_ofMembers (hrules : RulesTidy rules) : ∀ members : List (String × Value),
    (∀ entry ∈ members, entry.2.Tidy) → AllTidy (ofMembers rules members)
  | [], _, entry, hentry => by cases hentry
  | (name, v) :: rest, h, entry, hentry => by
      rw [ofMembers] at hentry
      rcases List.mem_cons.mp hentry with rfl | hmem
      · exact tidy_of hrules v (h (name, v) List.mem_cons_self)
      · exact tidy_ofMembers hrules rest (fun e he => h e (List.mem_cons_of_mem _ he)) entry hmem

end

end Of

section Keywords

variable {α : Type} {members : List (String × Reading)} {name : String}
  {read : Reading → Option α}

theorem exists_of_optional? (hm : AllTidy members) {a : α}
    (h : optional? members name read = some (some a)) : ∃ r : Reading, r.Tidy ∧ read r = some a := by
  unfold optional? at h
  split at h
  · cases h
  · rename_i r hf
    split at h
    · cases h
    · obtain ⟨b, hb, heq⟩ := Option.map_eq_some_iff.mp h
      cases heq
      exact ⟨r, hm _ (mem_of_findValue? hf), hb⟩

theorem exists_of_orElse? (hm : AllTidy members) {default a : α}
    (h : orElse? members name default read = some a) :
    a = default ∨ ∃ r : Reading, r.Tidy ∧ read r = some a := by
  unfold orElse? at h
  split at h
  · cases h
    exact Or.inl rfl
  · rename_i r hf
    exact Or.inr ⟨r, hm _ (mem_of_findValue? hf), h⟩

theorem exists_of_required? (hm : AllTidy members) {a : α}
    (h : required? members name read = some a) : ∃ r : Reading, r.Tidy ∧ read r = some a := by
  obtain ⟨r, hf, hr⟩ := Option.bind_eq_some_iff.mp h
  exact ⟨r, hm _ (mem_of_findValue? hf), hr⟩

/-- A keyword that may be absent and holds a list of schemas. -/
theorem tidy_of_optional_list (hm : AllTidy members) {found : Option (List Schema)}
    (h : optional? members name (·.list) = some found) : ∀ s ∈ found.getD [], s.Tidy := by
  cases found with
  | none =>
      intro s hs
      cases hs
  | some l =>
      obtain ⟨r, hr, hl⟩ := exists_of_optional? hm h
      exact hr.list l hl

/-- A keyword that may be absent and holds schemas under names. -/
theorem tidy_of_optional_map (hm : AllTidy members) {found : Option (List (String × Schema))}
    (h : optional? members name (·.map) = some found) : TidyMembers (found.getD []) := by
  cases found with
  | none => exact ⟨List.nodup_nil, fun entry hentry => by cases hentry⟩
  | some m =>
      obtain ⟨r, hr, hl⟩ := exists_of_optional? hm h
      exact hr.map m hl

/-- A keyword that may be absent and holds a schema. -/
theorem tidy_of_optional_schema (hm : AllTidy members) {found : Option Schema}
    (h : optional? members name (·.schema) = some found) : ∀ s ∈ found, s.Tidy := by
  intro s hs
  cases hs
  obtain ⟨r, hr, hl⟩ := exists_of_optional? hm h
  exact hr.schema s hl

end Keywords

end Reading

/-- A schema without schemas in it is tidy. -/
theorem Schema.tidy_bare (keywords : Keywords) :
    (Schema.inline keywords [] [] [] [] none .none).Tidy := by
  refine .inline keywords ?_ ?_ ?_ List.nodup_nil ?_ ?_ ?_
  · intro s hs
    cases hs
  · intro s hs
    cases hs
  · intro s hs
    cases hs
  · intro entry hentry
    cases hentry
  · intro s hs
    cases hs
  · intro s hs
    cases hs

/-! ## Schemas of version 3.0 -/

namespace Version30

open Reading

/-- The schemas in the keywords of a schema are tidy. -/
structure RawSchema.Tidy (raw : RawSchema) : Prop where
  /-- Those of the properties. -/
  properties : TidyMembers (raw.properties.getD [])
  /-- That for other properties. -/
  additional : ∀ s, raw.additional = some (.described s) → s.Tidy
  /-- That of the items. -/
  items : ∀ s ∈ raw.items, s.Tidy
  /-- The constituents. -/
  allOf : ∀ s ∈ raw.allOf.getD [], s.Tidy
  /-- The alternatives of which exactly one holds. -/
  oneOf : ∀ s ∈ raw.oneOf.getD [], s.Tidy
  /-- The alternatives of which some hold. -/
  anyOf : ∀ s ∈ raw.anyOf.getD [], s.Tidy

theorem tidy_of_additional? {r : Reading} (hr : r.Tidy) {s : Schema}
    (h : additional? r = some (.described s)) : s.Tidy := by
  unfold additional? at h
  split at h
  · cases h
  · cases h
  · obtain ⟨s', hs, heq⟩ := Option.map_eq_some_iff.mp h
    cases heq
    exact hr.schema s hs

theorem tidy_of_rawSchema? {members : List (String × Reading)} (hm : AllTidy members)
    {raw : RawSchema} (h : rawSchema? members = some raw) : raw.Tidy := by
  unfold rawSchema? at h
  -- The keywords in the order they are read; only those that hold schemas matter.
  iterate 16 obtain ⟨_, _, h⟩ := Option.bind_eq_some_iff.mp h
  obtain ⟨properties, hproperties, h⟩ := Option.bind_eq_some_iff.mp h
  obtain ⟨_, _, h⟩ := Option.bind_eq_some_iff.mp h
  obtain ⟨additional, hadditional, h⟩ := Option.bind_eq_some_iff.mp h
  obtain ⟨items, hitems, h⟩ := Option.bind_eq_some_iff.mp h
  obtain ⟨_, _, h⟩ := Option.bind_eq_some_iff.mp h
  obtain ⟨allOf, hallOf, h⟩ := Option.bind_eq_some_iff.mp h
  obtain ⟨oneOf, honeOf, h⟩ := Option.bind_eq_some_iff.mp h
  obtain ⟨anyOf, hanyOf, heq⟩ := Option.bind_eq_some_iff.mp h
  cases heq
  refine ⟨tidy_of_optional_map hm hproperties, fun s hs => ?_, tidy_of_optional_schema hm hitems,
    tidy_of_optional_list hm hallOf, tidy_of_optional_list hm honeOf,
    tidy_of_optional_list hm hanyOf⟩
  simp only at hs
  subst hs
  obtain ⟨r, hr, ha⟩ := exists_of_optional? hm hadditional
  exact tidy_of_additional? hr ha

theorem RawSchema.Tidy.additional_getD {raw : RawSchema} (h : raw.Tidy) {s : Schema}
    (hs : raw.additional.getD .none = .described s) : s.Tidy := by
  cases ha : raw.additional with
  | none =>
      rw [ha] at hs
      cases hs
  | some found =>
      rw [ha] at hs
      exact h.additional s (by rw [ha, ← hs, Option.getD_some])

theorem tidy_typed (t : SchemaType) (name : String) (deprecated : Bool) (base : Constraints)
    {raw : RawSchema} (h : raw.Tidy) : (typed t name deprecated base raw).Tidy := by
  unfold typed
  cases t with
  | object =>
      refine .inline _ ?_ ?_ ?_ h.properties.nodup h.properties.schemas ?_ ?_
      · intro s hs
        cases hs
      · intro s hs
        cases hs
      · intro s hs
        cases hs
      · intro s hs
        cases hs
      · intro s hs
        exact h.additional_getD hs
  | array =>
      refine .inline _ ?_ ?_ ?_ List.nodup_nil ?_ h.items ?_
      · intro s hs
        cases hs
      · intro s hs
        cases hs
      · intro s hs
        cases hs
      · intro entry hentry
        cases hentry
      · intro s hs
        cases hs
  | _ => exact Schema.tidy_bare _

theorem tidy_schemaOf (kind : Kind) (a : Annotations) {raw : RawSchema} (h : raw.Tidy) :
    (schemaOf kind a raw).Tidy := by
  unfold schemaOf
  cases kind with
  | typed t => exact tidy_typed t _ _ _ h
  | lone keyword =>
      refine .inline _ h.allOf h.oneOf h.anyOf List.nodup_nil ?_ ?_ ?_
      · intro entry hentry
        cases hentry
      · intro s hs
        cases hs
      · intro s hs
        cases hs
  | any =>
      exact .inline _ h.allOf h.oneOf h.anyOf h.properties.nodup h.properties.schemas h.items
        fun s hs => h.additional_getD hs

theorem rulesTidy : RulesTidy rules := by
  intro members hm s hs
  have hrule : rules.inline members = (do
      let a ← annotations? members
      let raw ← rawSchema? members
      return schemaOf (kindOf (presentKeywords members) raw) a raw) := rfl
  rw [hrule] at hs
  simp only [Option.bind_eq_bind, Option.mem_def, Option.bind_eq_some_iff] at hs
  obtain ⟨a, _, raw, hraw, heq⟩ := hs
  cases heq
  exact tidy_schemaOf _ a (tidy_of_rawSchema? hm hraw)

theorem tidy_of_schema? {v : Value} (hv : v.Tidy) {s : Schema} (h : schema? v = some s) :
    s.Tidy :=
  (tidy_of rulesTidy v hv).schema s h

end Version30

/-! ## Schemas of version 3.1 -/

namespace Version31

open Reading

theorem tidy_of_additional? {r : Reading} (hr : r.Tidy) {s : Schema}
    (h : additional? r = some (.described s)) : s.Tidy := by
  unfold additional? at h
  split at h
  · rename_i schema hs
    cases h
    exact hr.schema s hs
  · split at h
    · cases h
    · cases h
    · cases h

theorem tidy_of_items? {r : Reading} (hr : r.Tidy) {s : Schema} (h : items? r = some (some s)) :
    s.Tidy := by
  unfold items? at h
  split at h
  · rename_i schema hs
    cases h
    exact hr.schema s hs
  · split at h
    · cases h
    · cases h

section Shapes

variable {members : List (String × Reading)} {s : Schema}

theorem tidy_of_array? (hm : AllTidy members) (h : array? members = some s) : s.Tidy := by
  unfold array? at h
  simp only [Option.bind_eq_bind, Option.bind_eq_some_iff] at h
  obtain ⟨_, _, items, hitems, _, _, _, _, _, _, _, _, _, _, _, _, _, _, heq⟩ := h
  cases heq
  refine .inline _ ?_ ?_ ?_ List.nodup_nil ?_ ?_ ?_
  · intro s hs
    cases hs
  · intro s hs
    cases hs
  · intro s hs
    cases hs
  · intro entry hentry
    cases hentry
  · intro s hs
    cases hs
    obtain ⟨r, hr, hread⟩ := exists_of_required? hm hitems
    exact tidy_of_items? hr hread
  · intro s hs
    cases hs

theorem tidy_of_object? (hm : AllTidy members) (h : object? members = some s) : s.Tidy := by
  unfold object? at h
  iterate 7 obtain ⟨_, _, h⟩ := Option.bind_eq_some_iff.mp h
  obtain ⟨properties, hproperties, h⟩ := Option.bind_eq_some_iff.mp h
  obtain ⟨additional, hadditional, h⟩ := Option.bind_eq_some_iff.mp h
  iterate 14 obtain ⟨_, _, h⟩ := Option.bind_eq_some_iff.mp h
  cases h
  have hprops : TidyMembers properties := by
    rcases exists_of_orElse? hm hproperties with rfl | ⟨r, hr, hread⟩
    · exact ⟨List.nodup_nil, fun entry hentry => by cases hentry⟩
    · exact hr.map properties hread
  refine .inline _ ?_ ?_ ?_ hprops.nodup hprops.schemas ?_ ?_
  · intro s hs
    cases hs
  · intro s hs
    cases hs
  · intro s hs
    cases hs
  · intro s hs
    cases hs
  · intro s hs
    cases additional with
    | none => cases hs
    | some found =>
        simp only [Option.getD_some] at hs
        subst hs
        obtain ⟨r, hr, hread⟩ := exists_of_optional? hm hadditional
        exact tidy_of_additional? hr hread

theorem tidy_of_listed? (hm : AllTidy members) {keyword : String} {schemas : List Schema}
    (h : listed? members keyword = some schemas) : ∀ s ∈ schemas, s.Tidy := by
  unfold listed? at h
  simp only [Option.bind_eq_bind, Option.bind_eq_some_iff] at h
  obtain ⟨found, hfound, _, _, _, _, _, _, heq⟩ := h
  cases heq
  obtain ⟨r, hr, hread⟩ := exists_of_required? hm hfound
  exact hr.list schemas hread

/-- A schema that is nothing but lists of schemas. -/
theorem tidy_lists {allOf oneOf anyOf : List Schema} (hall : ∀ s ∈ allOf, s.Tidy)
    (hone : ∀ s ∈ oneOf, s.Tidy) (hany : ∀ s ∈ anyOf, s.Tidy) :
    (Schema.inline {} allOf oneOf anyOf [] none .none).Tidy := by
  refine .inline _ hall hone hany List.nodup_nil ?_ ?_ ?_
  · intro entry hentry
    cases hentry
  · intro s hs
    cases hs
  · intro s hs
    cases hs

theorem tidy_of_composed? (hm : AllTidy members) (h : composed? members = some s) : s.Tidy := by
  have hnil : ∀ s ∈ ([] : List Schema), s.Tidy := by
    intro s hs
    cases hs
  unfold composed? at h
  split at h
  · rename_i schemas hl
    cases h
    exact tidy_lists hnil (tidy_of_listed? hm hl) hnil
  · split at h
    · rename_i schemas hl
      cases h
      exact tidy_lists (tidy_of_listed? hm hl) hnil hnil
    · obtain ⟨schemas, hl, rfl⟩ := Option.map_eq_some_iff.mp h
      exact tidy_lists hnil hnil (tidy_of_listed? hm hl)

end Shapes

theorem rulesTidy : RulesTidy rules := by
  intro members hm s hs
  have hrule : rules.inline members
      = ((array? members).or (object? members)).or (composed? members) := rfl
  rw [hrule] at hs
  rcases Option.or_eq_some_iff.mp hs with hs | ⟨_, hs⟩
  · rcases Option.or_eq_some_iff.mp hs with hs | ⟨_, hs⟩
    · exact tidy_of_array? hm hs
    · exact tidy_of_object? hm hs
  · exact tidy_of_composed? hm hs

theorem tidy_of_schema? {v : Value} (hv : v.Tidy) {s : Schema} (h : schema? v = some s) :
    s.Tidy :=
  (tidy_of rulesTidy v hv).schema s h

end Version31

/-! ## Parts of a description -/

/-- Everything that is read from a tidy value has a property. -/
def Value.Reads {α : Type} (read : Value → Option α) (P : α → Prop) : Prop :=
  ∀ v : Value, v.Tidy → ∀ a, read v = some a → P a

namespace Value.Reads

variable {α : Type} {read : Value → Option α} {P : α → Prop}

theorem mapOf? (h : Value.Reads read P) :
    Value.Reads (Value.mapOf? read) fun found =>
      (found.map Prod.fst).Nodup ∧ ∀ entry ∈ found, P entry.2 := by
  intro v hv found hfound
  refine ⟨hv.nodup_mapOf? hfound, fun entry hentry => ?_⟩
  obtain ⟨w, hw, hread⟩ := hv.exists_of_mem_mapOf? hfound hentry
  exact h w hw entry.2 hread

theorem listOf? (h : Value.Reads read P) :
    Value.Reads (Value.listOf? read) fun found => ∀ a ∈ found, P a := by
  intro v hv found hfound a ha
  obtain ⟨w, hw, hread⟩ := hv.exists_of_mem_listOf? hfound ha
  exact h w hw a hread

variable {r : Record} {name : String}

theorem optional? (h : Value.Reads read P) (hr : r.value.Tidy) {found : Option α}
    (hfound : r.optional? name read = some found) : ∀ a ∈ found, P a := by
  intro a ha
  cases ha
  obtain ⟨v, hv, hread⟩ := Record.exists_of_optional? hr hfound
  exact h v hv a hread

theorem orElse? (h : Value.Reads read P) (hr : r.value.Tidy) {default a : α} (hdefault : P default)
    (ha : r.orElse? name default read = some a) : P a := by
  rcases Record.exists_of_orElse? hr ha with rfl | ⟨v, hv, hread⟩
  · exact hdefault
  · exact h v hv a hread

theorem required? (h : Value.Reads read P) (hr : r.value.Tidy) {a : α}
    (ha : r.required? name read = some a) : P a := by
  obtain ⟨v, hv, hread⟩ := Record.exists_of_required? hr ha
  exact h v hv a hread

end Value.Reads

theorem tidyEntries_nil {α : Type} {P : α → Prop} :
    (([] : List (String × α)).map Prod.fst).Nodup ∧
      ∀ entry ∈ ([] : List (String × α)), P entry.2 :=
  ⟨List.nodup_nil, fun entry hentry => by cases hentry⟩

theorem tidyContents_nil : TidyContents [] :=
  ⟨List.nodup_nil, fun media hmedia => by cases hmedia⟩

/-- Contents are tidy if their types are different and their schemas are tidy. -/
theorem tidyContents_of_members {found : List (String × Option Schema)}
    (hnodup : (found.map Prod.fst).Nodup) (h : ∀ entry ∈ found, ∀ s ∈ entry.2, s.Tidy) :
    TidyContents (found.map fun entry => ⟨entry.1, entry.2⟩) where
  nodup := by
    rw [List.map_map]
    exact hnodup
  schemas media hmedia s hs := by
    obtain ⟨entry, hentry, rfl⟩ := List.mem_map.mp hmedia
    exact h entry hentry s hs

theorem reads_contents {media? : Value → Option (Option Schema)}
    (h : Value.Reads media? fun schema => ∀ s ∈ schema, s.Tidy) :
    Value.Reads (fun v => (v.mapOf? media?).map fun found =>
      found.map fun (type, schema) => (⟨type, schema⟩ : Media)) TidyContents := by
  intro v hv contents hcontents
  obtain ⟨found, hfound, rfl⟩ := Option.map_eq_some_iff.mp hcontents
  obtain ⟨hnodup, hschemas⟩ := h.mapOf? v hv found hfound
  exact tidyContents_of_members hnodup hschemas

/-- Operations that are read under methods are tidy. -/
theorem tidy_of_operations {r : Record} (hr : r.value.Tidy) {operation? : Value → Option Operation}
    (hop : Value.Reads operation? Operation.Tidy) {found : List (String × Option Operation)}
    (h : Description.methods.mapM (fun method =>
      (r.optional? method operation?).map fun op => (method, op)) = some found) :
    ∀ entry ∈ found.filterMap (fun (method, op) => op.map fun op => (method, op)),
      entry.2.Tidy := by
  intro entry hentry
  obtain ⟨⟨method, op⟩, hmem, hmap⟩ := List.mem_filterMap.mp hentry
  obtain ⟨op', rfl, rfl⟩ := Option.map_eq_some_iff.mp hmap
  obtain ⟨method', _, hread⟩ := exists_of_mem_mapM_option h hmem
  obtain ⟨op'', hop'', heq⟩ := Option.map_eq_some_iff.mp hread
  cases heq
  exact hop.optional? hr hop'' op' rfl

/-- Some of the paths of a tidy object are different and tidy. -/
theorem tidy_of_paths {v : Value} (hv : v.Tidy) {pathItem? : Value → Option PathItem}
    (hitem : Value.Reads pathItem? PathItem.Tidy) {members : List (String × Value)}
    (hmembers : v.members? = some members) {wanted : String × Value → Bool}
    {found : List (String × PathItem)}
    (h : (members.filter wanted).mapM (fun (path, v) =>
      (pathItem? v).map fun item => (path, item)) = some found) :
    (found.map Prod.fst).Nodup ∧ ∀ entry ∈ found, entry.2.Tidy := by
  cases hv with
  | object hnodup htidy =>
      cases hmembers
      refine ⟨?_, fun entry hentry => ?_⟩
      · rw [map_fst_mapM h]
        exact hnodup.sublist (List.Sublist.map _ List.filter_sublist)
      · obtain ⟨⟨path, w⟩, hmem, hread⟩ := exists_of_mem_mapM_option h hentry
        obtain ⟨item, hi, rfl⟩ := Option.map_eq_some_iff.mp hread
        exact hitem w (htidy _ (List.mem_of_mem_filter hmem)) item hi
  | _ => cases hmembers

/-! ## Parts of a description of version 3.1 -/

namespace Version31

theorem reads_schema? : Value.Reads schema? Schema.Tidy :=
  fun _ hv _ h => tidy_of_schema? hv h

theorem reads_media? : Value.Reads media? fun schema => ∀ s ∈ schema, s.Tidy := by
  intro v hv schema h
  obtain ⟨r, hr, h⟩ := Option.bind_eq_some_iff.mp h
  exact reads_schema?.optional? (hv.record? hr) h

theorem reads_contents? : Value.Reads contents? TidyContents := reads_contents reads_media?

theorem reads_body? : Value.Reads body? Body.Tidy := by
  intro v hv b h
  unfold body? at h
  simp only [Option.bind_eq_bind, Option.bind_eq_some_iff] at h
  obtain ⟨r, hr, _, _, contents, hcontents, heq⟩ := h
  cases heq
  exact reads_contents?.orElse? (hv.record? hr) tidyContents_nil hcontents

theorem reads_parameter? : Value.Reads parameter? ParameterDecl.Tidy := by
  intro v hv p h
  unfold parameter? at h
  simp only [Option.bind_eq_bind, Option.bind_eq_some_iff] at h
  obtain ⟨r, hr, _, _, _, _, _, _, _, _, schema, hschema, contents, hcontents, heq⟩ := h
  cases heq
  exact ⟨reads_schema?.optional? (hv.record? hr) hschema,
    reads_contents?.orElse? (hv.record? hr) tidyContents_nil hcontents⟩

theorem reads_operation? : Value.Reads operation? Operation.Tidy := by
  intro v hv op h
  unfold operation? at h
  simp only [Option.bind_eq_bind, Option.bind_eq_some_iff] at h
  obtain ⟨r, hr, _, _, _, _, parameters, hparameters, requestBody, hrequestBody, responses,
    hresponses, heq⟩ := h
  cases heq
  have hvr := hv.record? hr
  have hps : ∀ p ∈ parameters, p.Tidy :=
    reads_parameter?.listOf?.orElse? hvr (fun p hp => by cases hp) hparameters
  obtain ⟨hnodup, hbodies⟩ := reads_body?.mapOf?.orElse? hvr tidyEntries_nil hresponses
  exact ⟨hps, reads_body?.optional? hvr hrequestBody, hnodup, hbodies⟩

theorem reads_pathItem? : Value.Reads pathItem? PathItem.Tidy := by
  intro v hv item h
  unfold pathItem? at h
  simp only [Option.bind_eq_bind, Option.bind_eq_some_iff] at h
  obtain ⟨r, hr, parameters, hparameters, operations, hoperations, heq⟩ := h
  cases heq
  have hvr := hv.record? hr
  exact ⟨reads_parameter?.listOf?.orElse? hvr (fun p hp => by cases hp) hparameters,
    tidy_of_operations hvr reads_operation? hoperations⟩

theorem reads_paths? : Value.Reads paths? fun found =>
    (found.map Prod.fst).Nodup ∧ ∀ entry ∈ found, entry.2.Tidy := by
  intro v hv found h
  unfold paths? at h
  obtain ⟨members, hmembers, h⟩ := Option.bind_eq_some_iff.mp h
  exact tidy_of_paths hv reads_pathItem? hmembers h

theorem tidy_of_components? {v : Value} (hv : v.Tidy)
    {schemas : List (String × Schema)} {responses : List (String × Body)}
    (h : components? v = some (schemas, responses)) :
    TidyMembers schemas ∧ ∀ entry ∈ responses, entry.2.Tidy := by
  unfold components? at h
  obtain ⟨members, hmembers, hsections⟩ := Option.bind_eq_some_iff.mp h
  clear h
  cases hv with
  | object _ htidy =>
      cases hmembers
      simp only [Option.bind_eq_bind, Option.bind_eq_some_iff] at hsections
      obtain ⟨schemas', hschemas, _, _, _, _, responses', hresponses, heq⟩ := hsections
      cases heq
      refine ⟨?_, ?_⟩
      · split at hschemas
        · cases hschemas
          exact ⟨List.nodup_nil, fun entry hentry => by cases hentry⟩
        · rename_i w hw
          obtain ⟨hnodup, hs⟩ :=
            reads_schema?.mapOf? w (htidy _ (mem_of_findValue? hw)) schemas hschemas
          exact ⟨hnodup, hs⟩
      · split at hresponses
        · cases hresponses
          intro entry hentry
          cases hentry
        · rename_i w hw
          exact (reads_body?.mapOf? w (htidy _ (mem_of_findValue? hw)) responses hresponses).2
  | _ => cases hmembers

/-- What has to be read of a document for its description, and nothing else. -/
theorem description_ok_iff {v : Value} {d : Description} :
    description v = .ok d ↔ ∃ shared root,
      components? ((v.get? "components").getD (.object [])) = some (d.schemas, d.responses) ∧
      ((v.get? "components").getD (.object [])).record?
        ["parameters", "requestBodies", "responses"] = some shared ∧
      shared.orElse? "parameters" [] (Value.mapOf? parameter?) = some d.parameters ∧
      shared.orElse? "requestBodies" [] (Value.mapOf? body?) = some d.requestBodies ∧
      v.record? ["openapi", "paths"] = some root ∧
      root.required? "openapi" Value.text? = some d.version ∧
      root.orElse? "paths" [] paths? = some d.paths ∧ d.dialect = .late := by
  constructor
  · intro h
    simp only [description] at h
    split at h
    · rename_i schemas responses hread
      split at h
      · rename_i shared hshared
        split at h
        · rename_i parameters hparameters
          split at h
          · rename_i requestBodies hbodies
            split at h
            · rename_i root hroot
              split at h
              · rename_i version hversion
                split at h
                · rename_i paths hpaths
                  cases h
                  exact ⟨shared, root, hread, hshared, hparameters, hbodies, hroot, hversion,
                    hpaths, rfl⟩
                · cases h
              · cases h
            · cases h
          · cases h
        · cases h
      · cases h
    · cases h
  · rintro ⟨shared, root, hread, hshared, hparameters, hbodies, hroot, hversion, hpaths, hdialect⟩
    obtain ⟨dialect, version, schemas, parameters, requestBodies, responses, paths⟩ := d
    obtain rfl : dialect = .late := hdialect
    simp only [description, hread, hshared, hparameters, hbodies, hroot, hversion, hpaths]
    rfl

theorem tidy_of_description {v : Value} (hv : v.Tidy) {d : Description}
    (h : description v = .ok d) : d.Tidy := by
  have hcomponents : ((v.get? "components").getD (.object [])).Tidy := by
    cases hc : v.get? "components" with
    | none => exact .object List.nodup_nil fun entry hentry => by cases hentry
    | some w => exact hv.get? hc
  obtain ⟨shared, root, hread, hshared, hparameters, hbodies, hroot, _, hpaths, _⟩ :=
    description_ok_iff.mp h
  obtain ⟨hschemas, hresponses⟩ := tidy_of_components? hcomponents hread
  have hvs := hcomponents.record? hshared
  obtain ⟨hnodup, hitems⟩ := reads_paths?.orElse? (hv.record? hroot) tidyEntries_nil hpaths
  exact {
    nodup_schemas := hschemas.nodup
    schemas := hschemas.schemas
    parameters := (reads_parameter?.mapOf?.orElse? hvs tidyEntries_nil hparameters).2
    requestBodies := (reads_body?.mapOf?.orElse? hvs tidyEntries_nil hbodies).2
    responses := hresponses
    nodup_paths := hnodup
    paths := hitems }

end Version31

/-! ## Parts of a description of version 3.0 -/

namespace Version30

theorem reads_schema? : Value.Reads schema? Schema.Tidy :=
  fun _ hv _ h => tidy_of_schema? hv h

theorem tidy_of_object? {v : Value} (hv : v.Tidy) {r : Record} (h : object? v = some r) :
    r.value.Tidy := by
  unfold object? at h
  split at h
  · cases h
    exact hv
  · cases h

/-- A reference or something else, both of which have a property. -/
theorem reads_orReference? {α : Type} {ofReference : String → α} {read : Value → Option α}
    {P : α → Prop} (href : ∀ target, P (ofReference target)) (hread : Value.Reads read P) :
    Value.Reads (orReference? ofReference read) P := by
  intro v hv a h
  unfold orReference? at h
  split at h
  · cases h
    exact href _
  · exact hread v hv a h

theorem reads_media? : Value.Reads media? fun schema => ∀ s ∈ schema, s.Tidy := by
  intro v hv schema h
  unfold media? at h
  simp only [Option.bind_eq_bind, Option.bind_eq_some_iff] at h
  obtain ⟨r, hr, _, _, _, _, hschema⟩ := h
  exact reads_schema?.optional? (tidy_of_object? hv hr) hschema

theorem reads_contents? : Value.Reads contents? TidyContents := reads_contents reads_media?

theorem reads_requestBody? : Value.Reads requestBody? Body.Tidy := by
  refine reads_orReference? (fun target => tidyContents_nil) fun v hv b h => ?_
  simp only [Option.bind_eq_bind, Option.bind_eq_some_iff] at h
  obtain ⟨r, hr, _, _, _, _, contents, hcontents, heq⟩ := h
  cases heq
  exact reads_contents?.orElse? (tidy_of_object? hv hr) tidyContents_nil hcontents

theorem reads_response? : Value.Reads response? Body.Tidy := by
  refine reads_orReference? (fun target => tidyContents_nil) fun v hv b h => ?_
  simp only [Option.bind_eq_bind, Option.bind_eq_some_iff] at h
  obtain ⟨r, hr, _, _, _, _, _, _, contents, hcontents, heq⟩ := h
  cases heq
  exact reads_contents?.orElse? (tidy_of_object? hv hr) tidyContents_nil hcontents

theorem tidy_of_parameterFormat? {members : List (String × Value)}
    (hm : ∀ entry ∈ members, entry.2.Tidy) {schema : Option Schema} {contents : List Media}
    (h : parameterFormat? members = some (schema, contents)) :
    (∀ s ∈ schema, s.Tidy) ∧ TidyContents contents := by
  fun_induction parameterFormat? members with
  | case1 => cases h
  | case2 v rest =>
      obtain ⟨s, hs, heq⟩ := Option.map_eq_some_iff.mp h
      cases heq
      refine ⟨fun s' hs' => ?_, tidyContents_nil⟩
      cases hs'
      exact reads_schema? v (hm _ List.mem_cons_self) s hs
  | case3 v rest =>
      obtain ⟨found, hfound, heq⟩ := Option.map_eq_some_iff.mp h
      cases heq
      refine ⟨fun s hs => ?_, reads_contents? v (hm _ List.mem_cons_self) _ hfound⟩
      cases hs
  | case4 first rest hschema hcontent ih =>
      exact ih (fun entry hentry => hm entry (List.mem_cons_of_mem _ hentry)) h

theorem reads_parameter? : Value.Reads parameter? ParameterDecl.Tidy := by
  refine reads_orReference? (fun target => ⟨fun s hs => ?_, tidyContents_nil⟩) fun v hv p h => ?_
  · cases hs
  · simp only [Option.bind_eq_bind, Option.bind_eq_some_iff] at h
    obtain ⟨r, hr, location, _, h⟩ := h
    split at h
    · cases h
    · simp only [Option.bind_eq_some_iff] at h
      obtain ⟨_, _, _, _, _, _, _, _, _, _, _, _, _, _, ⟨schema, contents⟩, hformat, heq⟩ := h
      cases heq
      obtain ⟨members, hmembers, hread⟩ := hformat
      cases hv with
      | object _ htidy =>
          cases hmembers
          obtain ⟨hschema, hcontents⟩ := tidy_of_parameterFormat? htidy hread
          exact ⟨hschema, hcontents⟩
      | _ => cases hmembers

/-- The default is no status. -/
theorem ne_default_of_status? {key status : String} (h : status? key = some status) :
    ¬ status = "default" := by
  rintro rfl
  unfold status? at h
  split at h
  · rename_i a b c hkey
    split at h
    · cases h
      have hlength : "default".toList.length = 3 := by
        rw [hkey]
        rfl
      revert hlength
      decide
    · split at h
      · have hlist := congrArg String.toList (Option.some.inj h)
        rw [String.toList_ofList] at hlist
        have hlength : "default".toList.length = 3 := by
          rw [← hlist]
          rfl
        revert hlength
        decide
      · cases h
  · cases h

theorem reads_responses? : Value.Reads responses? fun found =>
    (found.map Prod.fst).Nodup ∧ ∀ entry ∈ found, entry.2.Tidy := by
  intro v hv found h
  unfold responses? at h
  simp only [Option.bind_eq_bind, Option.bind_eq_some_iff] at h
  obtain ⟨r, hr, members, hmembers, default, hdefault, read, hread, heq⟩ := h
  cases heq
  have hdefaults := reads_response?.optional? (tidy_of_object? hv hr) hdefault
  cases hv with
  | object _ htidy =>
      cases hmembers
      have hknown : ∀ entry ∈ read, ¬ entry.1 = "default" ∧ entry.2.Tidy := by
        intro entry hentry
        obtain ⟨⟨status, w⟩, hmem, hw⟩ := exists_of_mem_mapM_option hread hentry
        obtain ⟨⟨key, w'⟩, hkey, hstatus⟩ := List.mem_filterMap.mp hmem
        obtain ⟨status', hst, heq⟩ := Option.map_eq_some_iff.mp hstatus
        cases heq
        obtain ⟨b, hb, rfl⟩ := Option.map_eq_some_iff.mp hw
        exact ⟨ne_default_of_status? hst, reads_response? w' (htidy _ hkey) b hb⟩
      have hentries : ∀ entry ∈ (OrderedMap.ofList read).entries,
          ¬ entry.1 = "default" ∧ entry.2.Tidy :=
        fun entry hentry => hknown entry (OrderedMap.mem_entries_ofList hentry)
      have hnodup := (OrderedMap.ofList read).nodup_keys
      cases default with
      | none =>
          simp only [Option.map_none, Option.toList_none, List.append_nil]
          exact ⟨hnodup, fun entry hentry => (hentries entry hentry).2⟩
      | some b =>
          simp only [Option.map_some, Option.toList_some, List.map_append, List.map_cons,
            List.map_nil]
          refine ⟨?_, fun entry hentry => ?_⟩
          · rw [List.nodup_append]
            have hsingle : ["default"].Nodup := List.nodup_cons.mpr ⟨List.not_mem_nil, List.nodup_nil⟩
            refine ⟨hnodup, hsingle, fun a ha b hb => ?_⟩
            obtain ⟨entry, hentry, rfl⟩ := List.mem_map.mp ha
            rw [List.mem_singleton.mp hb]
            exact (hentries entry hentry).1
          · rcases List.mem_append.mp hentry with hmem | hmem
            · exact (hentries entry hmem).2
            · rw [List.mem_singleton.mp hmem]
              exact hdefaults b rfl
  | _ => cases hmembers

theorem reads_operation? : Value.Reads operation? Operation.Tidy := by
  intro v hv op h
  unfold operation? at h
  simp only [Option.bind_eq_bind, Option.bind_eq_some_iff] at h
  obtain ⟨r, hr, _, _, _, _, _, _, _, _, _, _, _, _, _, _, parameters, hparameters, requestBody,
    hrequestBody, responses, hresponses, heq⟩ := h
  cases heq
  have hvr := tidy_of_object? hv hr
  have hps : ∀ p ∈ parameters, p.Tidy :=
    reads_parameter?.listOf?.orElse? hvr (fun p hp => by cases hp) hparameters
  obtain ⟨hnodup, hbodies⟩ := reads_responses?.required? hvr hresponses
  exact ⟨hps, reads_requestBody?.optional? hvr hrequestBody, hnodup, hbodies⟩

theorem reads_pathItem? : Value.Reads pathItem? PathItem.Tidy := by
  refine reads_orReference? (fun target => ⟨fun p hp => ?_, fun entry hentry => ?_⟩)
    fun v hv item h => ?_
  · cases hp
  · cases hentry
  · simp only [Option.bind_eq_bind, Option.bind_eq_some_iff] at h
    obtain ⟨r, hr, _, _, _, _, _, _, parameters, hparameters, operations, hoperations, heq⟩ := h
    cases heq
    have hvr := tidy_of_object? hv hr
    exact ⟨reads_parameter?.listOf?.orElse? hvr (fun p hp => by cases hp) hparameters,
      tidy_of_operations hvr reads_operation? hoperations⟩

theorem reads_paths? : Value.Reads paths? fun found =>
    (found.map Prod.fst).Nodup ∧ ∀ entry ∈ found, entry.2.Tidy := by
  intro v hv found h
  unfold paths? at h
  obtain ⟨members, hmembers, h⟩ := Option.bind_eq_some_iff.mp h
  exact tidy_of_paths hv reads_pathItem? hmembers h

/-- The sections of the components are tidy. -/
structure Components.Tidy (c : Components) : Prop where
  /-- The schemas are tidy. -/
  schemas : TidyMembers c.schemas
  /-- The parameters are tidy. -/
  parameters : ∀ entry ∈ c.parameters, entry.2.Tidy
  /-- The request bodies are tidy. -/
  requestBodies : ∀ entry ∈ c.requestBodies, entry.2.Tidy
  /-- The responses are tidy. -/
  responses : ∀ entry ∈ c.responses, entry.2.Tidy

theorem reads_components? : Value.Reads components? Components.Tidy := by
  intro v hv c h
  unfold components? at h
  simp only [Option.bind_eq_bind, Option.bind_eq_some_iff] at h
  obtain ⟨r, hr, _, _, schemas, hschemas, parameters, hparameters, requestBodies, hrequestBodies,
    responses, hresponses, heq⟩ := h
  cases heq
  have hvr := tidy_of_object? hv hr
  obtain ⟨hnodup, hs⟩ := reads_schema?.mapOf?.orElse? hvr tidyEntries_nil hschemas
  exact ⟨⟨hnodup, hs⟩, (reads_parameter?.mapOf?.orElse? hvr tidyEntries_nil hparameters).2,
    (reads_requestBody?.mapOf?.orElse? hvr tidyEntries_nil hrequestBodies).2,
    (reads_response?.mapOf?.orElse? hvr tidyEntries_nil hresponses).2⟩

theorem reads_description? : Value.Reads description? Description.Tidy := by
  intro v hv d h
  unfold description? at h
  simp only [Option.bind_eq_bind, Option.bind_eq_some_iff] at h
  obtain ⟨r, hr, _, _, _, _, _, _, paths, hpaths, components, hcomponents, heq⟩ := h
  cases heq
  have hvr := tidy_of_object? hv hr
  obtain ⟨hnodup, hitems⟩ := reads_paths?.required? hvr hpaths
  have hc : (components.getD {}).Tidy := by
    cases components with
    | none =>
        refine ⟨⟨List.nodup_nil, ?_⟩, ?_, ?_, ?_⟩
        all_goals
          intro entry hentry
          cases hentry
    | some c => exact reads_components?.optional? hvr hcomponents c rfl
  exact {
    nodup_schemas := hc.schemas.nodup
    schemas := hc.schemas.schemas
    parameters := hc.parameters
    requestBodies := hc.requestBodies
    responses := hc.responses
    nodup_paths := hnodup
    paths := hitems }

end Version30

/-! ## Descriptions -/

theorem Description.tidy_of_ofValue {dialect : Dialect} {v : Value} (hv : v.Tidy)
    {d : Description} (h : ofValue dialect v = .ok d) : d.Tidy := by
  unfold ofValue at h
  cases dialect with
  | early =>
      simp only at h
      split at h
      · rename_i d' hd
        cases h
        exact Version30.reads_description? v hv d hd
      · cases h
  | late => exact Version31.tidy_of_description hv h

/-- **What is read from a text is tidy.** -/
theorem Description.tidy_of_load {text : String} {d : Description} (h : load text = .ok d) :
    d.Tidy := by
  unfold load at h
  split at h
  · cases h
  · rename_i v hv
    split at h
    · cases h
    · split at h
      · exact tidy_of_ofValue (Yaml.tidy_of_read? hv) h
      · cases h

end ApiTypes
