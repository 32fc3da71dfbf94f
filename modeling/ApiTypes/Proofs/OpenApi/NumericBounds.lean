import ApiTypes.OpenApi.Version31
import ApiTypes.Proofs.Decimal.Integers
import ApiTypes.Proofs.OpenApi.Keywords
import ApiTypes.Proofs.Resolve.Constrained

/-!
# Bounds of numbers with and without their ends

A schema of version 3.1 has two keywords for each side of its numbers, one for a bound that is left
out and one for a bound that is not. One bound is recorded for a side, with a mark that it is left
out. Numbers that meet what is written always meet what is recorded
(`Version31.BoundsKept.recorded`). The converse holds unless both keywords are written and the bound
that is not left out is the stricter one: that one is forgotten (`Version31.BoundsKept.kept_iff`).
What is recorded is what the annotation of the side says (`Version31.BoundsKept.annotated`).
-/

set_option autoImplicit false

namespace ApiTypes

open Decimal (Binary64 positional)
open Decimal.Binary64 (Canonical canonical_nearest readInteger value_ofInt)
open Reading

/-! ## Sides -/

/-- The sides on which numbers are bounded. -/
inductive Side where
  /-- From below. -/
  | lower
  /-- From above. -/
  | upper
  deriving DecidableEq

namespace Side

/-- The keyword of a bound that is not left out. -/
def keyword : Side → String
  | lower => "minimum"
  | upper => "maximum"

/-- The keyword of a bound that is left out. -/
def exclusiveKeyword : Side → String
  | lower => "exclusiveMinimum"
  | upper => "exclusiveMaximum"

/-- The name of the annotation. -/
def annotationName : Side → String
  | lower => "DecimalMin"
  | upper => "DecimalMax"

/-- What is recorded: a bound, and whether it is left out. -/
def recorded (c : Constraints) : Side → Option Binary64 × Bool
  | lower => (c.minimum, c.exclusiveMinimum)
  | upper => (c.maximum, c.exclusiveMaximum)

/-- A number is within a bound. -/
def Within (exclusive : Bool) (bound x : ℚ) : Side → Prop
  | lower => if exclusive then bound < x else bound ≤ x
  | upper => if exclusive then x < bound else x ≤ bound

/-- A bound admits fewer numbers than another one. -/
def Stricter (a b : ℤ) : Side → Prop
  | lower => b < a
  | upper => a < b

/-- A number is within the bounds that are written on a side. -/
def WithinWritten (side : Side) (inclusive exclusive : Option ℤ) (x : ℚ) : Prop :=
  (∀ n ∈ inclusive, side.Within false n x) ∧ ∀ n ∈ exclusive, side.Within true n x

/-- A number is within the bound that is recorded for a side. -/
def WithinRecorded (side : Side) (c : Constraints) (x : ℚ) : Prop :=
  ∀ bound ∈ (side.recorded c).1, side.Within (side.recorded c).2 bound.value x

/-- A number is within the one of the bounds of a side that decides: the one that is left out, if it
is written. -/
def WithinDeciding (side : Side) (inclusive : Option ℤ) : Option ℤ → ℚ → Prop
  | some n, x => side.Within true n x
  | none, x => ∀ n ∈ inclusive, side.Within false n x

/-- Both bounds of a side are written, and the one that is not left out is the stricter one. -/
def Forgets (side : Side) (inclusive exclusive : Option ℤ) : Prop :=
  ∃ a ∈ inclusive, ∃ b ∈ exclusive, side.Stricter a b

/-- A number is within the bound that an annotation says. -/
def WithinSaid (side : Side) (a : Annotation) (x : ℚ) : Prop :=
  ∃ argument text, a.arguments.get? "value" = some argument ∧ Text.Spells argument.value text
    ∧ side.Within (a.arguments.get? "inclusive" = some ⟨"false", none⟩)
        (readInteger text.toList) x

variable {side : Side} {x : ℚ} {a b n : ℤ}

/-- If a bound that is left out is not the less strict one, it decides. -/
theorem within_of_not_stricter (hnot : ¬ side.Stricter a b) (h : side.Within true b x) :
    side.Within false a x := by
  cases side with
  | lower =>
      have hle : (a : ℚ) ≤ b := by exact_mod_cast not_lt.1 hnot
      exact hle.trans (le_of_lt h)
  | upper =>
      have hle : (b : ℚ) ≤ a := by exact_mod_cast not_lt.1 hnot
      exact (le_of_lt h).trans hle

/-- If it is the less strict one, a number between them does not meet the stricter one. -/
theorem exists_within_of_stricter (h : side.Stricter a b) :
    ∃ x : ℚ, side.Within true b x ∧ ¬ side.Within false a x := by
  cases side with
  | lower =>
      have hlt : (b : ℚ) < a := by exact_mod_cast h
      refine ⟨(a + b) / 2, ?_, ?_⟩
      · change (b : ℚ) < (a + b) / 2
        linarith
      · change ¬ (a : ℚ) ≤ (a + b) / 2
        linarith
  | upper =>
      have hlt : (a : ℚ) < b := by exact_mod_cast h
      refine ⟨(a + b) / 2, ?_, ?_⟩
      · change (a + b) / 2 < (b : ℚ)
        linarith
      · change ¬ (a + b) / 2 ≤ (a : ℚ)
        linarith

variable {inclusive exclusive : Option ℤ}

theorem WithinWritten.deciding (h : side.WithinWritten inclusive exclusive x) :
    side.WithinDeciding inclusive exclusive x := by
  cases exclusive with
  | some n => exact h.2 n rfl
  | none => exact h.1

/-- **The bound that decides says what both bounds say**, unless the other one is the stricter
one. -/
theorem withinWritten_iff_deciding :
    (∀ x, side.WithinWritten inclusive exclusive x ↔ side.WithinDeciding inclusive exclusive x)
      ↔ ¬ side.Forgets inclusive exclusive := by
  constructor
  · rintro hsame ⟨a, ha, b, hb, hstricter⟩
    obtain ⟨x, hwithin, hnot⟩ := exists_within_of_stricter hstricter
    cases hb
    exact hnot (((hsame x).2 hwithin).1 a ha)
  · intro hnot x
    constructor
    · exact WithinWritten.deciding
    · intro hx
      cases exclusive with
      | none => exact ⟨hx, by simp⟩
      | some b =>
          refine ⟨?_, ?_⟩
          · intro a ha
            exact within_of_not_stricter (fun hab => hnot ⟨a, ha, b, rfl, hab⟩) hx
          · rintro n ⟨⟩
            exact hx

/-- What the annotation of a bound says. -/
theorem withinSaid_boundWritten_iff {package name text : String} {exclusive : Bool} :
    side.WithinSaid (Constraints.boundWritten package name text exclusive) x
      ↔ side.Within exclusive (readInteger text.toList) x := by
  have hflag : decide ((if exclusive then some (⟨"false", none⟩ : Argument) else none)
      = some ⟨"false", none⟩) = exclusive := by
    cases exclusive <;> rfl
  unfold WithinSaid
  simp only [Constraints.get?_value_boundWritten, Constraints.get?_inclusive_boundWritten,
    hflag, Option.some.injEq]
  constructor
  · rintro ⟨argument, other, rfl, hspells, hwithin⟩
    rwa [(Text.Spells.literal text).unique hspells]
  · intro hwithin
    exact ⟨_, text, rfl, Text.Spells.literal text, hwithin⟩

theorem annotationsNamed_eq (side : Side) (c : Constraints) (validation : Validation) :
    c.annotationsNamed validation side.annotationName
      = (validation.package?.bind fun package => (side.recorded c).1.map fun bound =>
          Constraints.boundWritten package side.annotationName (positional bound)
            (side.recorded c).2).toList := by
  cases side with
  | lower => exact c.annotationsNamed_decimalMin validation
  | upper => exact c.annotationsNamed_decimalMax validation

/-- The annotations of a side say what is recorded, if this is an integer of at most 53 bits. -/
theorem withinRecorded_iff_said {c : Constraints} {validation : Validation}
    (hinteger : ∀ bound ∈ (side.recorded c).1,
      ∃ n : ℤ, n.natAbs ≤ 2 ^ 53 ∧ Canonical bound ∧ bound.value = n)
    (hvalidation : validation ≠ .disabled) (x : ℚ) :
    side.WithinRecorded c x
      ↔ ∀ a ∈ c.annotationsNamed validation side.annotationName, side.WithinSaid a x := by
  obtain ⟨package, hpackage⟩ : ∃ package, validation.package? = some package := by
    cases validation with
    | disabled => exact absurd rfl hvalidation
    | javax => exact ⟨_, rfl⟩
    | jakarta => exact ⟨_, rfl⟩
  rw [annotationsNamed_eq, hpackage, WithinRecorded]
  cases hbound : (side.recorded c).1 with
  | none => simp
  | some bound =>
      obtain ⟨n, hn, hcanonical, hvalue⟩ := hinteger bound hbound
      have hread := hcanonical.readInteger_positional hvalue hn
      simp [withinSaid_boundWritten_iff, hread, hvalue]

end Side

/-! ## Integers that are written -/

/-- A number of a document is an integer, with or without a point. -/
def Number.IsInteger (n : ℤ) : Number → Prop
  | .int k => k = n
  | .real x => Canonical x ∧ x.value = n

theorem Number.IsInteger.toBinary {number : Number} {n : ℤ} (h : number.IsInteger n)
    (hn : n.natAbs ≤ 2 ^ 53) : Canonical number.toBinary ∧ number.toBinary.value = n := by
  cases number with
  | int k =>
      obtain rfl : k = n := h
      exact ⟨canonical_nearest _ _ Nat.one_pos, value_ofInt hn⟩
  | real x => exact h

/-- An integer of at most 53 bits is written under a keyword, or nothing is. -/
def Declares (members : List (String × Value)) (name : String) : Option ℤ → Prop
  | none => writtenNumber? members name = none
  | some n => n.natAbs ≤ 2 ^ 53 ∧ ∃ number, writtenNumber? members name = some number
      ∧ number.IsInteger n

namespace Version31

variable {members : List (String × Value)} {schema : Schema} {side : Side}
  {inclusive exclusive : Option ℤ} {c : Constraints} {validation : Validation}

/-- The members of a schema that is no reference and no array, and has a type. -/
structure IsPlain (members : List (String × Value)) : Prop where
  /-- It is no reference. -/
  inline : reference? (.object members) = none
  /-- It is no array. -/
  noArray : array? (ofMembers rules members) = none
  /-- It has a type, and keywords that can be read. -/
  typed : (object? (ofMembers rules members)).isSome

/-- The bound of each side is recorded from its two keywords. -/
theorem recorded_of_object? (h : object? (ofMembers rules members) = some schema)
    (key : SchemaKey) (side : Side) :
    side.recorded (⟨key, schema⟩ : SchemaNode).constraints
      = bound (writtenNumber? members side.keyword)
          (writtenNumber? members side.exclusiveKeyword) := by
  unfold object? at h
  -- The keywords in the order in which they are read; only the bounds matter.
  iterate 14 obtain ⟨_, _, h⟩ := Option.bind_eq_some_iff.1 h
  obtain ⟨maximum, hmaximum, h⟩ := Option.bind_eq_some_iff.1 h
  obtain ⟨minimum, hminimum, h⟩ := Option.bind_eq_some_iff.1 h
  obtain ⟨exclusiveMaximum, hexclusiveMaximum, h⟩ := Option.bind_eq_some_iff.1 h
  obtain ⟨exclusiveMinimum, hexclusiveMinimum, h⟩ := Option.bind_eq_some_iff.1 h
  iterate 5 obtain ⟨_, _, h⟩ := Option.bind_eq_some_iff.1 h
  cases h
  cases side with
  | lower =>
      rw [Side.keyword, Side.exclusiveKeyword, ← eq_writtenNumber? hminimum,
        ← eq_writtenNumber? hexclusiveMinimum]
      rfl
  | upper =>
      rw [Side.keyword, Side.exclusiveKeyword, ← eq_writtenNumber? hmaximum,
        ← eq_writtenNumber? hexclusiveMaximum]
      rfl

/-- What is recorded for a side, from the integers that are written. -/
theorem withinRecorded_iff
    (hrecorded : side.recorded c
      = bound (writtenNumber? members side.keyword) (writtenNumber? members side.exclusiveKeyword))
    (hinclusive : Declares members side.keyword inclusive)
    (hexclusive : Declares members side.exclusiveKeyword exclusive) (x : ℚ) :
    side.WithinRecorded c x ↔ side.WithinDeciding inclusive exclusive x := by
  unfold Side.WithinRecorded Side.WithinDeciding
  rw [hrecorded]
  cases exclusive with
  | some n =>
      obtain ⟨hn, number, hwritten, hinteger⟩ := hexclusive
      have hvalue := (hinteger.toBinary hn).2
      rw [hwritten]
      simp [bound, hvalue]
  | none =>
      have hnone : writtenNumber? members side.exclusiveKeyword = none := hexclusive
      rw [hnone]
      cases inclusive with
      | some n =>
          obtain ⟨hn, number, hwritten, hinteger⟩ := hinclusive
          have hvalue := (hinteger.toBinary hn).2
          rw [hwritten]
          simp [bound, hvalue]
      | none =>
          have hnone : writtenNumber? members side.keyword = none := hinclusive
          rw [hnone]
          simp [bound]

/-- How the bounds of a side are kept: those that are written, in what is recorded, and what is
recorded, in the annotations. -/
structure BoundsKept (side : Side) (inclusive exclusive : Option ℤ) (c : Constraints)
    (validation : Validation) : Prop where
  /-- What is recorded is not stricter than what is written. -/
  recorded : ∀ x, side.WithinWritten inclusive exclusive x → side.WithinRecorded c x
  /-- It is as strict unless the stricter one of two bounds is not the one that is left out. -/
  kept_iff : (∀ x, side.WithinWritten inclusive exclusive x ↔ side.WithinRecorded c x)
    ↔ ¬ side.Forgets inclusive exclusive
  /-- Annotations say what is recorded. -/
  annotated : validation ≠ .disabled → ∀ x, side.WithinRecorded c x
    ↔ ∀ a ∈ c.annotationsNamed validation side.annotationName, side.WithinSaid a x

/-- What is recorded is an integer of at most 53 bits, if only such are written. -/
theorem integer_of_recorded
    (hrecorded : side.recorded c
      = bound (writtenNumber? members side.keyword) (writtenNumber? members side.exclusiveKeyword))
    (hinclusive : Declares members side.keyword inclusive)
    (hexclusive : Declares members side.exclusiveKeyword exclusive) :
    ∀ bound ∈ (side.recorded c).1,
      ∃ n : ℤ, n.natAbs ≤ 2 ^ 53 ∧ Canonical bound ∧ bound.value = n := by
  intro x hx
  rw [hrecorded] at hx
  have hwritten : ∀ {name : String} {declared : Option ℤ}, Declares members name declared →
      ∀ number ∈ writtenNumber? members name, ∃ n : ℤ, n.natAbs ≤ 2 ^ 53
        ∧ Canonical number.toBinary ∧ number.toBinary.value = n := by
    intro name declared hdeclares number hnumber
    cases declared with
    | none =>
        have hnone : writtenNumber? members name = none := hdeclares
        rw [hnone] at hnumber
        cases hnumber
    | some n =>
        obtain ⟨hn, other, hother, hinteger⟩ := hdeclares
        rw [hother] at hnumber
        cases hnumber
        exact ⟨n, hn, hinteger.toBinary hn⟩
  unfold bound at hx
  split at hx
  · rename_i number hnumber
    cases hx
    exact hwritten hexclusive number hnumber
  · obtain ⟨number, hnumber, rfl⟩ := Option.map_eq_some_iff.1 hx
    exact hwritten hinclusive number hnumber

theorem boundsKept_of_recorded
    (hrecorded : side.recorded c
      = bound (writtenNumber? members side.keyword) (writtenNumber? members side.exclusiveKeyword))
    (hinclusive : Declares members side.keyword inclusive)
    (hexclusive : Declares members side.exclusiveKeyword exclusive) (validation : Validation) :
    BoundsKept side inclusive exclusive c validation := by
  have hdeciding := withinRecorded_iff hrecorded hinclusive hexclusive
  constructor
  · intro x hx
    exact (hdeciding x).2 hx.deciding
  · simp only [hdeciding]
    exact Side.withinWritten_iff_deciding
  · intro hvalidation x
    exact Side.withinRecorded_iff_said (integer_of_recorded hrecorded hinclusive hexclusive)
      hvalidation x

/-- No bounds are recorded for a schema. -/
def Unbounded (schema : Schema) : Prop :=
  ∀ key, (⟨key, schema⟩ : SchemaNode).constraints.minimum = none
    ∧ (⟨key, schema⟩ : SchemaNode).constraints.maximum = none

theorem unbounded_of_array? {readings : List (String × Reading)}
    (h : array? readings = some schema) : Unbounded schema := by
  unfold array? at h
  iterate 9 obtain ⟨_, _, h⟩ := Option.bind_eq_some_iff.1 h
  cases h
  intro key
  exact ⟨rfl, rfl⟩

theorem unbounded_of_composed? {readings : List (String × Reading)}
    (h : composed? readings = some schema) : Unbounded schema := by
  unfold composed? at h
  split at h
  · cases h
    intro key
    exact ⟨rfl, rfl⟩
  · split at h
    · cases h
      intro key
      exact ⟨rfl, rfl⟩
    · obtain ⟨schemas, -, rfl⟩ := Option.map_eq_some_iff.1 h
      intro key
      exact ⟨rfl, rfl⟩

/-- A schema that is read from members is a reference, or it is made in one of three ways. -/
theorem schema?_object_cases (h : schema? (.object members) = some schema) :
    (∃ target, reference? (.object members) = some target ∧ schema = .reference target)
      ∨ reference? (.object members) = none
        ∧ (array? (ofMembers rules members) = some schema
          ∨ array? (ofMembers rules members) = none
            ∧ (object? (ofMembers rules members) = some schema
              ∨ object? (ofMembers rules members) = none
                ∧ composed? (ofMembers rules members) = some schema)) := by
  rw [schema?, of] at h
  rcases Option.or_eq_some_iff.1 h with href | ⟨hnone, hinline⟩
  · obtain ⟨target, hread, rfl⟩ := Option.map_eq_some_iff.1 href
    exact .inl ⟨target, hread, rfl⟩
  · refine .inr ⟨Option.map_eq_none_iff.1 hnone, ?_⟩
    have hshape : inline? (ofMembers rules members) = some schema := hinline
    unfold inline? at hshape
    rcases Option.or_eq_some_iff.1 hshape with htyped | ⟨huntyped, hcomposed⟩
    · rcases Option.or_eq_some_iff.1 htyped with harray | ⟨hnoArray, hobject⟩
      · exact .inl harray
      · exact .inr ⟨hnoArray, .inl hobject⟩
    · obtain ⟨hnoArray, hnoObject⟩ := Option.or_eq_none_iff.1 huntyped
      exact .inr ⟨hnoArray, .inr ⟨hnoObject, hcomposed⟩⟩

/-- Only a plain schema has bounds. -/
theorem unbounded_of_not_isPlain {v : Value} (hread : schema? v = some schema)
    (h : ¬ ∃ members, v = .object members ∧ IsPlain members) : Unbounded schema := by
  have hreference : ∀ target, Unbounded (.reference target) := fun _ _ => ⟨rfl, rfl⟩
  cases v with
  | list items =>
      rw [schema?, of] at hread
      obtain ⟨target, -, rfl⟩ := Option.map_eq_some_iff.1 hread
      exact hreference target
  | object members =>
      rcases schema?_object_cases hread with
        ⟨target, -, rfl⟩ | ⟨hinline, harray | ⟨hnoArray, hrest⟩⟩
      · exact hreference target
      · exact unbounded_of_array? harray
      · rcases hrest with hobject | ⟨-, hcomposed⟩
        · exact absurd ⟨members, rfl, hinline, hnoArray, by rw [hobject]; rfl⟩ h
        · exact unbounded_of_composed? hcomposed
  | _ => cases hread

theorem IsPlain.object?_eq (h : IsPlain members)
    (hread : schema? (.object members) = some schema) :
    object? (ofMembers rules members) = some schema := by
  rcases schema?_object_cases hread with ⟨target, href, -⟩ | ⟨-, harray | ⟨-, hrest⟩⟩
  · rw [h.inline] at href
    cases href
  · rw [h.noArray] at harray
    cases harray
  · rcases hrest with hobject | ⟨hnone, -⟩
    · exact hobject
    · have htyped := h.typed
      rw [hnone] at htyped
      cases htyped

/-- **The bounds of a schema of version 3.1.** Of a plain schema the bounds of each side are kept as
far as the stricter one is the one that is left out. Where this is so on both sides, a number is
within all bounds that are written exactly if it is within those that are recorded. Other schemas
have no bounds, whatever is written. -/
theorem boundsKept_of_schema? {v : Value} (hread : schema? v = some schema) (key : SchemaKey)
    (validation : Validation) :
    let c := (⟨key, schema⟩ : SchemaNode).constraints
    (∀ members, v = .object members → IsPlain members →
        (∀ (side : Side) (inclusive exclusive : Option ℤ),
          Declares members side.keyword inclusive →
          Declares members side.exclusiveKeyword exclusive →
          BoundsKept side inclusive exclusive c validation)
        ∧ ∀ inclusive exclusive : Side → Option ℤ,
          (∀ side : Side, Declares members side.keyword (inclusive side)
            ∧ Declares members side.exclusiveKeyword (exclusive side)) →
          (∀ side : Side, ¬ side.Forgets (inclusive side) (exclusive side)) →
          ∀ x, (∀ side : Side, side.WithinWritten (inclusive side) (exclusive side) x)
            ↔ ∀ side : Side, side.WithinRecorded c x)
      ∧ ((¬ ∃ members, v = .object members ∧ IsPlain members) →
        ∀ side : Side, (side.recorded c).1 = none
          ∧ c.annotationsNamed validation side.annotationName = []) := by
  intro c
  constructor
  · rintro members rfl hplain
    have hrecorded := recorded_of_object? (hplain.object?_eq hread) key
    constructor
    · intro side inclusive exclusive hinclusive hexclusive
      exact boundsKept_of_recorded (hrecorded side) hinclusive hexclusive validation
    · intro inclusive exclusive hdeclares hforgets x
      have hside (side : Side) : side.WithinWritten (inclusive side) (exclusive side) x
          ↔ side.WithinRecorded c x := by
        obtain ⟨hinclusive, hexclusive⟩ := hdeclares side
        have hkept := boundsKept_of_recorded (hrecorded side) hinclusive hexclusive validation
        exact hkept.kept_iff.2 (hforgets side) x
      exact forall_congr' hside
  · intro hplain side
    have hnone : (side.recorded c).1 = none := by
      obtain ⟨hminimum, hmaximum⟩ := unbounded_of_not_isPlain hread hplain key
      cases side with
      | lower => exact hminimum
      | upper => exact hmaximum
    refine ⟨hnone, ?_⟩
    rw [Side.annotationsNamed_eq, hnone]
    cases validation.package? <;> rfl

/-- The members of a schema with two lower bounds. -/
def twiceBoundedMembers : List (String × Value) :=
  [("type", .str "integer"), ("minimum", .num (.int 10)), ("exclusiveMinimum", .num (.int 5))]

/-- The schema that is read from them. -/
def twiceBoundedSchema : Schema :=
  .inline
    { type := some "integer"
      constraints := { minimum := some (Binary64.ofInt 5), exclusiveMinimum := true } }
    [] [] [] [] none .none

theorem schema?_twiceBoundedMembers :
    schema? (.object twiceBoundedMembers) = some twiceBoundedSchema := rfl

theorem isPlain_twiceBoundedMembers : IsPlain twiceBoundedMembers := ⟨rfl, rfl, rfl⟩

/-- The stricter one of two lower bounds is forgotten, and a number below it is admitted. -/
theorem boundsKept_twiceBounded :
    schema? (.object twiceBoundedMembers) = some twiceBoundedSchema
      ∧ BoundsKept .lower (some 10) (some 5)
          (⟨default, twiceBoundedSchema⟩ : SchemaNode).constraints .jakarta
      ∧ Side.lower.Forgets (some 10) (some 5)
      ∧ Side.lower.WithinRecorded (⟨default, twiceBoundedSchema⟩ : SchemaNode).constraints 7
      ∧ ¬ Side.lower.WithinWritten (some 10) (some 5) 7 := by
  have hten : Declares twiceBoundedMembers Side.lower.keyword (some 10) :=
    ⟨by decide, .int 10, rfl, rfl⟩
  have hfive : Declares twiceBoundedMembers Side.lower.exclusiveKeyword (some 5) :=
    ⟨by decide, .int 5, rfl, rfl⟩
  have hkept := (boundsKept_of_schema? schema?_twiceBoundedMembers default .jakarta).1
    twiceBoundedMembers rfl isPlain_twiceBoundedMembers
  refine ⟨schema?_twiceBoundedMembers, hkept.1 .lower _ _ hten hfive, ?_, ?_, ?_⟩
  · have hless : (5 : ℤ) < 10 := by decide
    exact ⟨10, rfl, 5, rfl, hless⟩
  · have hvalue : (Binary64.ofInt 5).value = (5 : ℤ) := value_ofInt (by decide)
    rintro bound ⟨⟩
    change (Binary64.ofInt 5).value < 7
    rw [hvalue]
    norm_num
  · intro h
    have hle : ((10 : ℤ) : ℚ) ≤ 7 := h.1 10 rfl
    norm_num at hle

end Version31

end ApiTypes
