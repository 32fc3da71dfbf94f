import ApiTypes.OpenApi.Version30
import ApiTypes.Proofs.Decimal.Integers
import ApiTypes.Proofs.OpenApi.Keywords
import ApiTypes.Proofs.Resolve.Constrained

/-!
# Bounds of integers in annotations

The bounds of the schema of an integer in version 3.0 are integers of 64 bits. They are recorded as
binary numbers of 53 bits, and annotations have what is written for these: the shortest integer
that is rounded like the bound (`Version30.IsIntegerSchema.boundCarried`). Up to `2 ^ 53` this is
the bound itself. Beyond, it never is for an odd bound, so the greatest bound of 64 bits comes out
as a greater one (`Version30.boundCarried_longMembers`).
-/

set_option autoImplicit false

namespace ApiTypes

open Decimal (Binary64 integerText positional)
open Decimal.Binary64 (Shortest)
open Reading

namespace Version30

variable {members : List (String × Value)} {schema : Schema}

/-- The members of a schema of an integer. -/
structure IsIntegerSchema (members : List (String × Value)) : Prop where
  /-- The schema is no reference. -/
  inline : reference? (.object members) = none
  /-- It has the type. -/
  type : written? members "type" = some (.str "integer")
  /-- It has no keyword that is foreign to the type. -/
  keywords : ∀ name ∈ kindKeywords, (written? members name).isSome →
    name ∈ SchemaType.integer.keywords
  /-- Its values, if they are told, are integers of 64 bits or null. -/
  enum : ∀ items, written? members "enum" = some (.list items) →
    ∀ v ∈ items, SchemaType.integer.admits v = true
  /-- So is what its values are multiples of. -/
  multipleOf : ∀ n ∈ writtenNumber? members "multipleOf", SchemaType.integer.admits (.num n) = true
  /-- So is its lower bound. -/
  minimum : ∀ n ∈ writtenNumber? members "minimum", SchemaType.integer.admits (.num n) = true
  /-- So is its upper bound. -/
  maximum : ∀ n ∈ writtenNumber? members "maximum", SchemaType.integer.admits (.num n) = true

theorem rawSchema?_eq_some {readings : List (String × Reading)} {raw : RawSchema}
    (h : rawSchema? readings = some raw) :
    optional? readings "type" text? = some raw.type
      ∧ optional? readings "multipleOf" number? = some raw.multipleOf
      ∧ optional? readings "minimum" number? = some raw.minimum
      ∧ optional? readings "exclusiveMinimum" bool? = some raw.exclusiveMinimum
      ∧ optional? readings "maximum" number? = some raw.maximum
      ∧ optional? readings "exclusiveMaximum" bool? = some raw.exclusiveMaximum
      ∧ optional? readings "enum" values? = some raw.enum := by
  unfold rawSchema? at h
  -- The keywords in the order in which they are read; only these matter.
  iterate 4 obtain ⟨_, _, h⟩ := Option.bind_eq_some_iff.1 h
  obtain ⟨type, htype, h⟩ := Option.bind_eq_some_iff.1 h
  iterate 2 obtain ⟨_, _, h⟩ := Option.bind_eq_some_iff.1 h
  obtain ⟨multipleOf, hmultipleOf, h⟩ := Option.bind_eq_some_iff.1 h
  obtain ⟨minimum, hminimum, h⟩ := Option.bind_eq_some_iff.1 h
  obtain ⟨exclusiveMinimum, hexclusiveMinimum, h⟩ := Option.bind_eq_some_iff.1 h
  obtain ⟨maximum, hmaximum, h⟩ := Option.bind_eq_some_iff.1 h
  obtain ⟨exclusiveMaximum, hexclusiveMaximum, h⟩ := Option.bind_eq_some_iff.1 h
  iterate 8 obtain ⟨_, _, h⟩ := Option.bind_eq_some_iff.1 h
  obtain ⟨enum, henum, h⟩ := Option.bind_eq_some_iff.1 h
  iterate 3 obtain ⟨_, _, h⟩ := Option.bind_eq_some_iff.1 h
  cases h
  exact ⟨htype, hmultipleOf, hminimum, hexclusiveMinimum, hmaximum, hexclusiveMaximum, henum⟩

/-- The keywords that count for the kind of a schema are those that are written. -/
theorem written_of_mem_presentKeywords {name : String}
    (h : name ∈ presentKeywords (ofMembers rules members)) :
    name ∈ kindKeywords ∧ (written? members name).isSome := by
  unfold presentKeywords at h
  rw [List.mem_filter, findValue?_ofMembers] at h
  obtain ⟨hmem, hany⟩ := h
  refine ⟨hmem, ?_⟩
  unfold written?
  cases hfind : findValue? name members with
  | none => simp [hfind] at hany
  | some v => cases v <;> simp [hfind, isNull] at hany ⊢

theorem admitsBound_of_forall {bound : Option Number}
    (h : ∀ n ∈ bound, SchemaType.integer.admits (.num n) = true) :
    SchemaType.integer.admitsBound bound = true := by
  cases bound with
  | none => rfl
  | some n => exact h n rfl

/-- The schema of an integer is typed. -/
theorem IsIntegerSchema.kindOf_eq (h : IsIntegerSchema members) {raw : RawSchema}
    (hraw : rawSchema? (ofMembers rules members) = some raw) :
    kindOf (presentKeywords (ofMembers rules members)) raw = .typed .integer := by
  obtain ⟨htype, hmultipleOf, hminimum, -, hmaximum, -, henum⟩ := rawSchema?_eq_some hraw
  have hname : raw.type = some "integer" := by
    rw [optional?_ofMembers, h.type] at htype
    have hsome : some "integer" = raw.type := by simpa [text?, Value.text?] using htype
    exact hsome.symm
  have hpresent : (presentKeywords (ofMembers rules members)).all
      SchemaType.integer.keywords.contains = true := by
    rw [List.all_eq_true]
    intro name hname
    obtain ⟨hmem, hwritten⟩ := written_of_mem_presentKeywords hname
    rw [List.contains_iff_mem]
    exact h.keywords name hmem hwritten
  have hvalues : (raw.enum.getD []).all SchemaType.integer.admits = true := by
    rw [List.all_eq_true]
    intro v hv
    obtain ⟨items, hwritten, hmem⟩ := mem_written_of_values? henum hv
    exact h.enum items hwritten v hmem
  have hmin := admitsBound_of_forall (eq_writtenNumber? hminimum ▸ h.minimum)
  have hmax := admitsBound_of_forall (eq_writtenNumber? hmaximum ▸ h.maximum)
  have hmultiple := admitsBound_of_forall (eq_writtenNumber? hmultipleOf ▸ h.multipleOf)
  have hinteger : SchemaType.ofName? "integer" = some .integer := rfl
  unfold kindOf
  rw [hname]
  simp only [hinteger, hpresent, hvalues, hmin, hmax, hmultiple]
  rfl

/-- A bound that has the type of integers is written as one. -/
theorem map_toBinary_writtenNumber? {name : String}
    (h : ∀ n ∈ writtenNumber? members name, SchemaType.integer.admits (.num n) = true) :
    (writtenNumber? members name).map Number.toBinary
      = (writtenInteger? members name).map Binary64.ofInt := by
  unfold writtenNumber? at h ⊢
  unfold writtenInteger?
  cases hfind : findValue? name members with
  | none => rfl
  | some v =>
      cases v with
      | num n =>
          cases n with
          | int k => rfl
          | real x =>
              rw [hfind] at h
              exact absurd (h _ rfl) (by simp [SchemaType.admits])
      | _ => rfl

/-- The bounds of an integer are recorded as they are rounded. -/
theorem IsIntegerSchema.constraints_eq (h : IsIntegerSchema members)
    (hread : schema? (.object members) = some schema) (key : SchemaKey) :
    let c := (⟨key, schema⟩ : SchemaNode).constraints
    c.minimum = (writtenInteger? members "minimum").map Binary64.ofInt
      ∧ c.exclusiveMinimum = writtenFlag members "exclusiveMinimum"
      ∧ c.maximum = (writtenInteger? members "maximum").map Binary64.ofInt
      ∧ c.exclusiveMaximum = writtenFlag members "exclusiveMaximum" := by
  have hinline : rules.inline (ofMembers rules members) = some schema := by
    have href : rules.reference (.object members) = none := h.inline
    rw [schema?, of] at hread
    simpa [href] using hread
  obtain ⟨a, -, hrest⟩ := Option.bind_eq_some_iff.1 hinline
  obtain ⟨raw, hraw, heq⟩ := Option.bind_eq_some_iff.1 hrest
  rw [h.kindOf_eq hraw] at heq
  cases heq
  obtain ⟨-, -, hminimum, hexclusiveMinimum, hmaximum, hexclusiveMaximum, -⟩ :=
    rawSchema?_eq_some hraw
  refine ⟨?_, getD_eq_writtenFlag hexclusiveMinimum, ?_, getD_eq_writtenFlag hexclusiveMaximum⟩
  · rw [← map_toBinary_writtenNumber? h.minimum, ← eq_writtenNumber? hminimum]
    rfl
  · rw [← map_toBinary_writtenNumber? h.maximum, ← eq_writtenNumber? hmaximum]
    rfl

/-- How the bound of a side comes into the annotations of a name: there is no annotation without a
bound, and the one for a bound has the literal of the shortest integer that is rounded like it. -/
structure BoundCarried (found : List Annotation) (validation : Validation) (name : String)
    (exclusive : Bool) (bound : Option ℤ) : Prop where
  /-- No bound, no annotation. -/
  absent : bound = none → found = []
  /-- The text is that of a shortest integer. -/
  carried : ∀ n ∈ bound, ∃ m, Shortest n m
    ∧ found = (validation.package?.map fun package =>
        Constraints.boundWritten package name (integerText m) exclusive).toList
  /-- Up to `2 ^ 53` it is the text of the bound. -/
  exact : ∀ n ∈ bound, n.natAbs ≤ 2 ^ 53 →
    found = (validation.package?.map fun package =>
      Constraints.boundWritten package name (integerText n) exclusive).toList
  /-- Beyond, it is never the text of an odd bound. -/
  inexact : ∀ n ∈ bound, 2 ^ 53 < n.natAbs → Odd n → ∀ a ∈ found,
    ∀ argument ∈ a.arguments.get? "value", argument.value ≠ Text.literal (integerText n)

theorem boundCarried_of_eq {found : List Annotation} {validation : Validation} {name : String}
    {exclusive : Bool} {bound : Option ℤ}
    (h : found = (validation.package?.bind fun package =>
      (bound.map Binary64.ofInt).map fun x =>
        Constraints.boundWritten package name (positional x) exclusive).toList) :
    BoundCarried found validation name exclusive bound := by
  have hcarried : ∀ n ∈ bound, ∃ m, Shortest n m
      ∧ found = (validation.package?.map fun package =>
          Constraints.boundWritten package name (integerText m) exclusive).toList := by
    intro n hn
    obtain ⟨m, htext, hshortest⟩ := Binary64.positional_ofInt n
    refine ⟨m, hshortest, ?_⟩
    rw [h, Option.mem_def.1 hn]
    cases validation.package? with
    | none => rfl
    | some package => simp [htext]
  refine ⟨?_, hcarried, ?_, ?_⟩
  · rintro rfl
    rw [h]
    cases validation.package? <;> rfl
  · intro n hn hle
    obtain ⟨m, hshortest, hfound⟩ := hcarried n hn
    rwa [hshortest.eq_of_le hle] at hfound
  · intro n hn hlarge hodd a ha argument hargument heq
    obtain ⟨m, hshortest, hfound⟩ := hcarried n hn
    rw [hfound, Option.mem_toList] at ha
    obtain ⟨package, -, rfl⟩ := Option.map_eq_some_iff.1 ha
    rw [Constraints.get?_value_boundWritten] at hargument
    obtain rfl := Option.some.inj hargument
    have hsame : m = n := Decimal.Binary64.integerText_injective (Text.literal_injective heq)
    exact hshortest.ne_of_odd hlarge hodd hsame

/-- **The bounds of an integer reach the annotations as shortest integers.** -/
theorem IsIntegerSchema.boundCarried (h : IsIntegerSchema members)
    (hread : schema? (.object members) = some schema) (key : SchemaKey) (validation : Validation) :
    let c := (⟨key, schema⟩ : SchemaNode).constraints
    BoundCarried (c.annotationsNamed validation "DecimalMin") validation "DecimalMin"
        (writtenFlag members "exclusiveMinimum") (writtenInteger? members "minimum")
      ∧ BoundCarried (c.annotationsNamed validation "DecimalMax") validation "DecimalMax"
        (writtenFlag members "exclusiveMaximum") (writtenInteger? members "maximum") := by
  intro c
  obtain ⟨hminimum, hexclusiveMinimum, hmaximum, hexclusiveMaximum⟩ := h.constraints_eq hread key
  constructor
  · apply boundCarried_of_eq
    rw [c.annotationsNamed_decimalMin, ← hminimum, ← hexclusiveMinimum]
  · apply boundCarried_of_eq
    rw [c.annotationsNamed_decimalMax, ← hmaximum, ← hexclusiveMaximum]

/-- The members of the schema of an integer with the greatest bound of 64 bits. -/
def longMembers : List (String × Value) :=
  [("type", .str "integer"), ("format", .str "int64"),
    ("maximum", .num (.int 9223372036854775807))]

/-- The schema that is read from them. -/
def longSchema : Schema :=
  .inline
    { type := some "integer", format := some "int64"
      constraints := { maximum := some (Binary64.ofInt 9223372036854775807) } }
    [] [] [] [] none .none

theorem isIntegerSchema_longMembers : IsIntegerSchema longMembers where
  inline := rfl
  type := rfl
  keywords := by decide
  enum := by
    intro items hitems
    cases hitems
  multipleOf := by
    intro n hn
    cases hn
  minimum := by
    intro n hn
    cases hn
  maximum := by
    intro n hn
    cases hn
    rfl

theorem schema?_longMembers : schema? (.object longMembers) = some longSchema := by
  rfl

/-- The greatest bound of 64 bits is written as a greater number. -/
theorem boundCarried_longMembers :
    IsIntegerSchema longMembers ∧ schema? (.object longMembers) = some longSchema
      ∧ BoundCarried
          ((⟨default, longSchema⟩ : SchemaNode).constraints.annotationsNamed .jakarta "DecimalMax")
          .jakarta "DecimalMax" false (some 9223372036854775807)
      ∧ (⟨default, longSchema⟩ : SchemaNode).constraints.annotationsNamed .jakarta "DecimalMax"
        = [Constraints.boundWritten "jakarta.validation.constraints" "DecimalMax"
            "9223372036854776000" false] := by
  refine ⟨isIntegerSchema_longMembers, schema?_longMembers, ?_, ?_⟩
  · exact (isIntegerSchema_longMembers.boundCarried schema?_longMembers default .jakarta).2
  · decide +kernel

end Version30

end ApiTypes
