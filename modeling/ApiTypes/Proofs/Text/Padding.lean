import ApiTypes.Text.Blank
import Mathlib.Data.List.DropRight

/-!
# Blanks around a text

Trimming takes away the blanks around a text and nothing else. A text is what trimming leaves with
blanks around it (`Text.padded_trim`), and what is left neither begins nor ends with a blank. This
says which text it is (`Text.trim_eq_iff`), so that a grammar can speak of blanks around its parts
where a reader trims them.
-/

set_option autoImplicit false

namespace ApiTypes.Text

/-- All characters of a text are blanks. -/
def AllBlank (text : List Char) : Prop := ∀ c ∈ text, isBlank c = true

/-- The second text is the first one with blanks around it. -/
def Padded (inner text : List Char) : Prop :=
  ∃ before after, AllBlank before ∧ AllBlank after ∧ text = before ++ (inner ++ after)

/-- A text neither begins nor ends with a blank. -/
structure Trimmed (text : List Char) : Prop where
  /-- It does not begin with one. -/
  head : ∀ c, text.head? = some c → isBlank c = false
  /-- It does not end with one. -/
  last : ∀ c, text.getLast? = some c → isBlank c = false

variable {text inner before after : List Char} {c : Char}

theorem allBlank_nil : AllBlank [] := nofun

theorem AllBlank.append (hbefore : AllBlank before) (hafter : AllBlank after) :
    AllBlank (before ++ after) := by
  intro c hc
  rcases List.mem_append.1 hc with hc | hc
  · exact hbefore c hc
  · exact hafter c hc

theorem allBlank_singleton (h : isBlank c = true) : AllBlank [c] := by
  intro d hd
  rwa [List.mem_singleton.1 hd]

/-- Blanks before a text. -/
theorem padded_prepend (h : AllBlank before) (text : List Char) : Padded text (before ++ text) :=
  ⟨before, [], h, allBlank_nil, by rw [List.append_nil]⟩

/-- Blanks after a text. -/
theorem padded_append (text : List Char) (h : AllBlank after) : Padded text (text ++ after) :=
  ⟨[], after, allBlank_nil, h, rfl⟩

theorem Padded.refl (text : List Char) : Padded text text := padded_prepend allBlank_nil text

theorem Padded.trans {middle : List Char} (h : Padded inner middle) (h' : Padded middle text) :
    Padded inner text := by
  obtain ⟨before, after, hbefore, hafter, rfl⟩ := h
  obtain ⟨before', after', hbefore', hafter', rfl⟩ := h'
  exact ⟨before' ++ before, after ++ after', hbefore'.append hbefore, hafter.append hafter',
    by simp⟩

theorem Padded.subset (h : Padded inner text) : inner ⊆ text := by
  obtain ⟨before, after, -, -, rfl⟩ := h
  intro c hc
  simp [hc]

/-- A character that is no blank stands in a text with blanks around it only if it stands in the
text itself. -/
theorem Padded.mem_of_not_blank (h : Padded inner text) (hc : isBlank c = false)
    (hmem : c ∈ text) : c ∈ inner := by
  obtain ⟨before, after, hbefore, hafter, rfl⟩ := h
  rcases List.mem_append.1 hmem with hmem | hmem
  · simp [hbefore c hmem] at hc
  · rcases List.mem_append.1 hmem with hmem | hmem
    · exact hmem
    · simp [hafter c hmem] at hc

theorem Trimmed.of_forall (h : ∀ c ∈ text, isBlank c = false) : Trimmed text :=
  ⟨fun c hc => h c (List.mem_of_mem_head? hc), fun c hc => h c (List.mem_of_getLast? hc)⟩

/-- Trimmed texts with anything between them. -/
theorem Trimmed.append (hbefore : Trimmed before) (between : List Char) (hne : before ≠ [])
    (hafter : Trimmed after) (hne' : after ≠ []) : Trimmed (before ++ (between ++ after)) := by
  constructor
  · intro c hc
    rw [List.head?_append_of_ne_nil _ hne] at hc
    exact hbefore.head c hc
  · intro c hc
    rw [← List.append_assoc, List.getLast?_append_of_ne_nil _ hne'] at hc
    exact hafter.last c hc

/-- The characters of a kind at the beginning of a text end where one of another kind comes. -/
theorem takeWhile_append_of_head {p : Char → Bool} {rest : List Char}
    (h : ∀ c ∈ text, p c = true) (hrest : ∀ c, rest.head? = some c → p c = false) :
    (text ++ rest).takeWhile p = text ∧ (text ++ rest).dropWhile p = rest := by
  rw [List.takeWhile_append_of_pos h, List.dropWhile_append_of_pos h]
  cases rest with
  | nil => simp
  | cons c rest => simp [hrest c rfl]

/-! ## Trimming -/

theorem trimEnd_eq_rdropWhile (text : List Char) : trimEnd text = text.rdropWhile isBlank := rfl

theorem trimStart_of_head (h : ∀ c, text.head? = some c → isBlank c = false) :
    trimStart text = text := by
  cases text with
  | nil => rfl
  | cons c rest => simp [trimStart_cons, h c rfl]

theorem trimEnd_of_last (h : ∀ c, text.getLast? = some c → isBlank c = false) :
    trimEnd text = text := by
  rw [trimEnd_eq_rdropWhile, List.rdropWhile_eq_self_iff]
  intro hne
  simp [h _ (List.getLast?_eq_some_getLast hne)]

theorem Trimmed.trim_eq (h : Trimmed text) : trim text = text := by
  rw [trim, trimStart_of_head h.head, trimEnd_of_last h.last]

/-- A text is what trimming the start leaves of it, after blanks. -/
theorem exists_trimStart (text : List Char) :
    ∃ blanks, AllBlank blanks ∧ text = blanks ++ trimStart text := by
  refine ⟨text.takeWhile isBlank, fun c hc => List.mem_takeWhile_imp hc, ?_⟩
  rw [trimStart, List.takeWhile_append_dropWhile]

/-- Blanks after a text are taken away. -/
theorem trimEnd_append (text : List Char) (h : AllBlank after) :
    trimEnd (text ++ after) = trimEnd text := by
  induction after using List.reverseRecOn with
  | nil => rw [List.append_nil]
  | append_singleton after c ih =>
      have hc : isBlank c = true := h c (by simp)
      have hafter : AllBlank after := fun d hd => h d (by simp [hd])
      rw [← List.append_assoc, trimEnd_eq_rdropWhile, List.rdropWhile_concat_pos _ _ _ hc,
        ← trimEnd_eq_rdropWhile, ih hafter]

/-- What trimming the start leaves after blanks are written behind a text. -/
theorem trimStart_append (text : List Char) (h : AllBlank after) :
    trimStart (text ++ after) = if (trimStart text).isEmpty then [] else trimStart text ++ after := by
  have hafter : after.dropWhile isBlank = [] := List.dropWhile_eq_nil_iff.2 h
  simp [trimStart, List.dropWhile_append, hafter]

/-- Blanks around a text are taken away. -/
theorem Padded.trim_eq (h : Padded inner text) : trim text = trim inner := by
  obtain ⟨before, after, hbefore, hafter, rfl⟩ := h
  rw [trim, trimStart_of_isBlank hbefore, trimStart_append inner hafter]
  split
  · rename_i hempty
    rw [trim, List.isEmpty_iff.1 hempty]
  · rw [trimEnd_append _ hafter, trim]

theorem trim_append_blank (text : List Char) (h : isBlank c = true) :
    trim (text ++ [c]) = trim text :=
  (padded_append text (allBlank_singleton h)).trim_eq

theorem trimStart_head (h : (trimStart text).head? = some c) :
    isBlank c = false := by
  have hnot := List.head?_dropWhile_not isBlank text
  rw [trimStart] at h
  rw [h] at hnot
  exact hnot

theorem trimEnd_last (h : (trimEnd text).getLast? = some c) :
    isBlank c = false := by
  rw [trimEnd, List.getLast?_reverse] at h
  exact trimStart_head h

/-- What trimming leaves neither begins nor ends with a blank. -/
theorem trimmed_trim (text : List Char) : Trimmed (trim text) := by
  constructor
  · intro c hc
    -- Trimming the end leaves the first character, or nothing.
    have hstart : trim text <+: trimStart text := List.rdropWhile_prefix isBlank (trimStart text)
    obtain ⟨rest, hrest⟩ := hstart
    have hhead : (trimStart text).head? = some c := by
      rw [← hrest, List.head?_append, hc]
      rfl
    exact trimStart_head hhead
  · intro c hc
    exact trimEnd_last hc

/-- A text is what trimming leaves of it, with blanks around. -/
theorem padded_trim (text : List Char) : Padded (trim text) text := by
  refine ⟨text.takeWhile isBlank, (trimStart text).rtakeWhile isBlank, ?_, ?_, ?_⟩
  · intro c hc
    exact List.mem_takeWhile_imp hc
  · intro c hc
    exact List.mem_rtakeWhile_imp hc
  · rw [trim, trimEnd_eq_rdropWhile, List.rdropWhile_append_rtakeWhile, trimStart,
      List.takeWhile_append_dropWhile]

/-- What trimming leaves of a text is the text within blanks that has none at its ends. -/
theorem trim_eq_iff : trim text = inner ↔ Padded inner text ∧ Trimmed inner := by
  constructor
  · rintro rfl
    exact ⟨padded_trim text, trimmed_trim text⟩
  · rintro ⟨hpadded, htrimmed⟩
    rw [hpadded.trim_eq, htrimmed.trim_eq]

/-- Nothing is left of blanks alone. -/
theorem trim_eq_nil_iff : trim text = [] ↔ AllBlank text := by
  constructor
  · intro h
    obtain ⟨⟨before, after, hbefore, hafter, rfl⟩, -⟩ := trim_eq_iff.1 h
    exact hbefore.append hafter
  · exact trim_of_isBlank

/-! ## Texts without their blanks -/

/-- The characters of a text that are no blanks. -/
def withoutBlanks (text : List Char) : List Char :=
  text.filter fun c => !isBlank c

@[simp] theorem withoutBlanks_append (before after : List Char) :
    withoutBlanks (before ++ after) = withoutBlanks before ++ withoutBlanks after :=
  List.filter_append before after

theorem withoutBlanks_of_allBlank (h : AllBlank text) : withoutBlanks text = [] := by
  apply List.filter_eq_nil_iff.2
  intro c hc
  simp [h c hc]

theorem withoutBlanks_of_forall (h : ∀ c ∈ text, isBlank c = false) :
    withoutBlanks text = text := by
  apply List.filter_eq_self.2
  intro c hc
  simp [h c hc]

theorem Padded.withoutBlanks_eq (h : Padded inner text) :
    withoutBlanks text = withoutBlanks inner := by
  obtain ⟨before, after, hbefore, hafter, rfl⟩ := h
  simp [withoutBlanks_of_allBlank hbefore, withoutBlanks_of_allBlank hafter]

theorem withoutBlanks_trim (text : List Char) : withoutBlanks (trim text) = withoutBlanks text :=
  (padded_trim text).withoutBlanks_eq.symm

theorem withoutBlanks_trimStart (text : List Char) :
    withoutBlanks (trimStart text) = withoutBlanks text := by
  obtain ⟨blanks, hblanks, htext⟩ := exists_trimStart text
  conv_rhs => rw [htext, withoutBlanks_append, withoutBlanks_of_allBlank hblanks, List.nil_append]

end ApiTypes.Text
