import ApiTypes.Proofs.Mapping.Literals
import Mathlib.Data.List.Forall2

/-!
# Arguments of annotations

The arguments of an annotation are a literal alone, or assignments of literals to names with commas
between them. `Rule.ArgumentText` says this as a grammar, for whatever counts as a name. A reader
cuts the text at the commas outside of strings, and each part at its first equals sign unless a
quote comes before it. What it takes for a name is any text without blanks at its ends that neither
cut can come in (`Rule.LooseName`), also the empty one; with these names it reads what the grammar
says, part by part (`Rule.ArgumentText.reads`, `Rule.argumentText_of_reads`).

The grammar and the reader agree on where strings end because a part is closed: each string that
begins in it ends in it, and it has no comma outside of them (`Rule.Closed`).
-/

set_option autoImplicit false

namespace ApiTypes

namespace Rule

open Text (AllBlank IsWord Padded Trimmed)

/-! ## Where strings begin and end -/

/-- The state after a text. -/
def StringState.afterAll (s : StringState) (text : List Char) : StringState :=
  text.foldl StringState.after s

/-- No comma of a text is outside of strings. -/
def NoComma (s : StringState) : List Char → Prop
  | [] => True
  | c :: rest => ¬ (c = ',' ∧ s = .outside) ∧ NoComma (s.after c) rest

/-- Each string that begins in a text ends in it, and no comma is outside of them. -/
structure Closed (text : List Char) : Prop where
  /-- No comma is outside of strings. -/
  noComma : NoComma .outside text
  /-- The last string ends. -/
  afterAll : StringState.outside.afterAll text = .outside

variable {s : StringState} {text more inner part value : List Char} {parts : List (List Char)}

@[simp] theorem StringState.afterAll_nil (s : StringState) : s.afterAll [] = s := rfl

@[simp] theorem StringState.afterAll_cons (s : StringState) (c : Char) (text : List Char) :
    s.afterAll (c :: text) = (s.after c).afterAll text := rfl

theorem StringState.afterAll_append (s : StringState) (text more : List Char) :
    s.afterAll (text ++ more) = (s.afterAll text).afterAll more :=
  List.foldl_append

theorem noComma_append :
    NoComma s (text ++ more) ↔ NoComma s text ∧ NoComma (s.afterAll text) more := by
  induction text generalizing s with
  | nil => simp [NoComma]
  | cons c rest ih => simp [NoComma, ih, and_assoc]

theorem Closed.append (h : Closed text) (hmore : Closed more) : Closed (text ++ more) := by
  constructor
  · rw [noComma_append, h.afterAll]
    exact ⟨h.noComma, hmore.noComma⟩
  · rw [StringState.afterAll_append, h.afterAll, hmore.afterAll]

/-- A text without quotes and commas is closed. -/
theorem closed_of_notMem (hquote : '\x22' ∉ text) (hcomma : ',' ∉ text) : Closed text := by
  induction text with
  | nil => exact ⟨trivial, rfl⟩
  | cons c rest ih =>
      rw [List.mem_cons, not_or] at hquote hcomma
      have hrest := ih hquote.2 hcomma.2
      have hafter : StringState.outside.after c = .outside := by
        simp [StringState.after, Ne.symm hquote.1]
      constructor
      · rw [NoComma, hafter]
        exact ⟨fun h => hcomma.1 h.1.symm, hrest.noComma⟩
      · rw [StringState.afterAll_cons, hafter, hrest.afterAll]

theorem closed_of_allBlank (h : AllBlank text) : Closed text := by
  apply closed_of_notMem
  · intro hmem
    cases h _ hmem
  · intro hmem
    cases h _ hmem

theorem Closed.padded (hinner : Closed inner) (h : Padded inner text) : Closed text := by
  obtain ⟨before, after, hbefore, hafter, rfl⟩ := h
  exact (closed_of_allBlank hbefore).append (hinner.append (closed_of_allBlank hafter))

/-- Between its quotes, a string stays a string. -/
theorem StringBody.inside {body : List Char} (h : StringBody body) :
    NoComma .inside body ∧ StringState.inside.afterAll body = .inside := by
  induction h with
  | nil => exact ⟨trivial, rfl⟩
  | plain hquote hescape hline h ih => simp [NoComma, StringState.after, hquote, hescape, ih]
  | escaped hline h ih => simp [NoComma, StringState.after, ih]

theorem closed_quoted {body : List Char} (h : StringBody body) : Closed (quoted body) := by
  have hopen : StringState.outside.after '\x22' = .inside := rfl
  obtain ⟨hnone, hstate⟩ := h.inside
  constructor
  · rw [quoted, NoComma, hopen, noComma_append, hstate]
    exact ⟨by decide, hnone, by simp [NoComma]⟩
  · rw [quoted, StringState.afterAll_cons, hopen, StringState.afterAll_append, hstate]
    rfl

theorem Atom.closed (h : Atom value) : Closed value := by
  cases h with
  | string h => exact closed_quoted h
  | word h =>
      apply closed_of_notMem
      · intro hmem
        exact (h.plain _ hmem).ne_quote rfl
      · intro hmem
        exact (h.plain _ hmem).ne_comma rfl

/-- Before the first quote there is no comma at all. -/
theorem comma_notMem (h : NoComma .outside text) (hquote : '\x22' ∉ text) : ',' ∉ text := by
  induction text with
  | nil => simp
  | cons c rest ih =>
      rw [List.mem_cons, not_or] at hquote
      have hafter : StringState.outside.after c = .outside := by
        simp [StringState.after, Ne.symm hquote.1]
      rw [NoComma, hafter] at h
      rw [List.mem_cons, not_or]
      exact ⟨fun hc => h.1 ⟨hc.symm, rfl⟩, ih h.2 hquote.2⟩

/-! ## Cutting at commas -/

theorem splitArguments_ne_nil (s : StringState) (text : List Char) :
    splitArguments s text ≠ [] := by
  cases text with
  | nil => simp [splitArguments]
  | cons c rest =>
      unfold splitArguments
      split
      · simp
      · split <;> simp

/-- A character that does not cut stands at the beginning of the first part. -/
theorem splitArguments_cons {c : Char} (hcut : ¬ (c = ',' ∧ s = .outside))
    (h : splitArguments (s.after c) text = part :: parts) :
    splitArguments s (c :: text) = (c :: part) :: parts := by
  have hcond : ¬ (c == ',' && s == .outside) = true := by
    rwa [Bool.and_eq_true, beq_iff_eq, beq_iff_eq]
  rw [splitArguments, if_neg hcond, h]

theorem splitArguments_of_noComma (h : NoComma s text) : splitArguments s text = [text] := by
  induction text generalizing s with
  | nil => rfl
  | cons c rest ih => exact splitArguments_cons h.1 (ih h.2)

theorem splitArguments_append_cons (h : NoComma s part) (hstate : s.afterAll part = .outside)
    (text : List Char) :
    splitArguments s (part ++ ',' :: text) = part :: splitArguments .outside text := by
  induction part generalizing s with
  | nil =>
      cases hstate
      rfl
  | cons c rest ih => exact splitArguments_cons h.1 (ih h.2 hstate)

/-- The first part has no comma outside of strings, and the others come after one. -/
theorem eq_of_splitArguments (h : splitArguments s text = part :: parts) :
    NoComma s part ∧ (parts = [] ∧ text = part
      ∨ ∃ rest, text = part ++ ',' :: rest ∧ splitArguments .outside rest = parts) := by
  induction text generalizing s part with
  | nil =>
      cases h
      exact ⟨trivial, .inl ⟨rfl, rfl⟩⟩
  | cons c rest ih =>
      by_cases hcut : c = ',' ∧ s = .outside
      · obtain ⟨rfl, rfl⟩ := hcut
        cases h
        exact ⟨trivial, .inr ⟨rest, rfl, rfl⟩⟩
      · obtain ⟨first, others, hrest⟩ :=
          List.exists_cons_of_ne_nil (splitArguments_ne_nil (s.after c) rest)
        rw [splitArguments_cons hcut hrest] at h
        cases h
        obtain ⟨hnone, ⟨rfl, rfl⟩ | ⟨after, rfl, hafter⟩⟩ := ih hrest
        · exact ⟨⟨hcut, hnone⟩, .inl ⟨rfl, rfl⟩⟩
        · exact ⟨⟨hcut, hnone⟩, .inr ⟨after, rfl, hafter⟩⟩

/-- Parts have no comma outside of strings, and their characters are those of the text. -/
theorem noComma_of_mem_splitArguments (h : part ∈ splitArguments .outside text) :
    NoComma .outside part ∧ part ⊆ text := by
  generalize hparts : splitArguments .outside text = parts at h
  induction parts generalizing text with
  | nil => cases h
  | cons first others ih =>
      obtain ⟨hnone, hrest⟩ := eq_of_splitArguments hparts
      rcases List.mem_cons.1 h with rfl | h
      · refine ⟨hnone, ?_⟩
        rcases hrest with ⟨-, rfl⟩ | ⟨rest, rfl, -⟩
        · exact List.Subset.refl _
        · exact List.subset_append_left _ _
      · rcases hrest with ⟨rfl, -⟩ | ⟨rest, rfl, hothers⟩
        · cases h
        · obtain ⟨hpart, hsubset⟩ := ih hothers h
          exact ⟨hpart, fun c hc => by simp [hsubset hc]⟩

/-! ## Cutting at an equals sign -/

/-- An argument is cut at its first equals sign, if no quote comes before it. -/
theorem splitAssignment?_eq_some_iff {left right : List Char} :
    splitAssignment? text = some (left, right)
      ↔ text = left ++ '=' :: right ∧ '=' ∉ left ∧ '\x22' ∉ left := by
  induction text using splitAssignment?.induct generalizing left with
  | case1 => simp [splitAssignment?]
  | case2 rest =>
      rw [splitAssignment?, Option.some_inj, Prod.mk.injEq]
      constructor
      · rintro ⟨rfl, rfl⟩
        exact ⟨rfl, by simp, by simp⟩
      · rintro ⟨heq, hequals, -⟩
        cases left with
        | nil =>
            cases heq
            exact ⟨rfl, rfl⟩
        | cons c left =>
            cases heq
            simp at hequals
  | case3 rest =>
      rw [splitAssignment?]
      refine ⟨nofun, ?_⟩
      rintro ⟨heq, -, hquote⟩
      cases left with
      | nil => cases heq
      | cons c left =>
          cases heq
          simp at hquote
  | case4 c rest hequals hquote ih =>
      rw [splitAssignment?.eq_4 c rest hequals hquote]
      constructor
      · intro h
        obtain ⟨⟨found, after⟩, hrest, hcut⟩ := Option.map_eq_some_iff.1 h
        cases hcut
        obtain ⟨rfl, hnoEquals, hnoQuote⟩ := ih.1 hrest
        refine ⟨rfl, ?_, ?_⟩
        · simpa [Ne.symm hequals] using hnoEquals
        · simpa [Ne.symm hquote] using hnoQuote
      · rintro ⟨heq, hnoEquals, hnoQuote⟩
        cases left with
        | nil =>
            cases heq
            exact absurd rfl hequals
        | cons d left =>
            cases heq
            rw [List.mem_cons, not_or] at hnoEquals hnoQuote
            rw [ih.2 ⟨rfl, hnoEquals.2, hnoQuote.2⟩]
            rfl

/-- A string is not cut, and a word has no equals sign. -/
theorem Atom.splitAssignment?_eq_none (h : Atom value) : splitAssignment? value = none := by
  cases h with
  | string h => rfl
  | word h =>
      rw [Option.eq_none_iff_forall_not_mem]
      rintro ⟨left, right⟩ hcut
      obtain ⟨rfl, -, -⟩ := splitAssignment?_eq_some_iff.1 hcut
      exact (h.plain '=' (by simp)).ne_equals rfl

/-- Blanks before a text that is not cut make no difference. -/
theorem splitAssignment?_append_of_none {blanks : List Char} (hblanks : AllBlank blanks)
    (h : splitAssignment? text = none) : splitAssignment? (blanks ++ text) = none := by
  induction blanks with
  | nil => exact h
  | cons c rest ih =>
      have hblank : Text.isBlank c = true := hblanks c (by simp)
      have hrest := ih fun d hd => hblanks d (by simp [hd])
      rw [List.cons_append, splitAssignment?.eq_4, hrest, Option.map_none]
      · rintro rfl
        cases hblank
      · rintro rfl
        cases hblank

/-! ## The grammar -/

/-- A text that is taken for the name of an argument: it has no blanks at its ends, and nothing in
it at which arguments are cut. It can be empty. -/
structure LooseName (name : List Char) : Prop where
  /-- It has no blanks at its ends. -/
  trimmed : Trimmed name
  /-- It has no equals sign. -/
  noEquals : '=' ∉ name
  /-- It has no quote. -/
  noQuote : '\x22' ∉ name
  /-- It has no comma. -/
  noComma : ',' ∉ name

/-- An identifier. -/
structure IsIdentifier (name : List Char) : Prop where
  /-- It is made as names of classes are. -/
  isClassName : isClassName name = true
  /-- It has no point. -/
  noPoint : '.' ∉ name

/-- An assignment as it is written, and the argument that it gives. -/
inductive Assigns (IsName : List Char → Prop) : List Char → String × Argument → Prop
  /-- A name and a literal with an equals sign between them, and blanks around both. -/
  | mk {name value left right : List Char} {a : Argument} (hname : IsName name)
      (hleft : Padded name left) (hvalue : Literal value a) (hright : Padded value right) :
      Assigns IsName (left ++ '=' :: right) (String.ofList name, a)

/-- Assignments with commas between them. -/
inductive Arguments (IsName : List Char → Prop) : List Char → List (String × Argument) → Prop
  /-- The last one. -/
  | single {text : List Char} {p : String × Argument} (h : Assigns IsName text p) :
      Arguments IsName text [p]
  /-- One before others. -/
  | more {part text : List Char} {p : String × Argument} {ps : List (String × Argument)}
      (h : Assigns IsName part p) (hrest : Arguments IsName text ps) :
      Arguments IsName (part ++ ',' :: text) (p :: ps)

/-- The text between the parentheses of an annotation, without blanks around it. -/
inductive ArgumentText (IsName : List Char → Prop) : List Char → List (String × Argument) → Prop
  /-- There are no arguments. -/
  | empty : ArgumentText IsName [] []
  /-- A literal alone. -/
  | alone {value : List Char} {a : Argument} (h : Literal value a) :
      ArgumentText IsName value [("value", a)]
  /-- Assignments. -/
  | named {text : List Char} {ps : List (String × Argument)} (h : Arguments IsName text ps) :
      ArgumentText IsName text ps

variable {IsName IsOther : List Char → Prop} {p : String × Argument}
  {ps : List (String × Argument)} {a : Argument}

theorem looseName_of_isWord {name : List Char} (h : IsWord name) : LooseName name := by
  refine ⟨h.trimmed, ?_, ?_, ?_⟩
  · intro hmem
    exact (h.plain _ hmem).ne_equals rfl
  · intro hmem
    exact (h.plain _ hmem).ne_quote rfl
  · intro hmem
    exact (h.plain _ hmem).ne_comma rfl

theorem IsIdentifier.isWord {name : List Char} (h : IsIdentifier name) : IsWord name :=
  isWord_of_isClassName h.isClassName

theorem Arguments.names (h : Arguments IsName text ps) : ∀ p ∈ ps, IsName p.1.toList := by
  have hone : ∀ {part p}, Assigns IsName part p → IsName p.1.toList := by
    rintro part p ⟨hname, -, -, -⟩
    rwa [String.toList_ofList]
  induction h with
  | single h =>
      intro p hp
      rw [List.mem_singleton.1 hp]
      exact hone h
  | more h hrest ih =>
      intro p hp
      rcases List.mem_cons.1 hp with rfl | hp
      · exact hone h
      · exact ih p hp

theorem Assigns.ne_nil (h : Assigns IsName part p) : part ≠ [] := by
  obtain ⟨-, -, -, -⟩ := h
  simp

theorem Arguments.ne_nil (h : Arguments IsName text ps) : text ≠ [] := by
  cases h with
  | single h => exact h.ne_nil
  | more h hrest => simp

/-- There is nothing to be read in an empty text. -/
theorem ArgumentText.eq_nil (h : ArgumentText IsName [] ps) : ps = [] := by
  generalize htext : ([] : List Char) = text at h
  cases h with
  | empty => rfl
  | alone h => exact absurd htext.symm h.atom.ne_nil
  | named h => exact absurd htext.symm h.ne_nil

/-- What counts as a name matters only for the names that are there. -/
theorem Arguments.imp (h : Arguments IsName text ps)
    (himp : ∀ p ∈ ps, IsName p.1.toList → IsOther p.1.toList) : Arguments IsOther text ps := by
  have hone : ∀ {part p}, Assigns IsName part p → (IsName p.1.toList → IsOther p.1.toList) →
      Assigns IsOther part p := by
    rintro part p ⟨hname, hleft, hvalue, hright⟩ himp
    rw [String.toList_ofList] at himp
    exact ⟨himp hname, hleft, hvalue, hright⟩
  induction h with
  | single h => exact .single (hone h (himp _ (by simp)))
  | more h hrest ih =>
      exact .more (hone h (himp _ (by simp))) (ih fun p hp => himp p (by simp [hp]))

theorem ArgumentText.imp (h : ArgumentText IsName text ps)
    (himp : ∀ p ∈ ps, IsName p.1.toList → IsOther p.1.toList) : ArgumentText IsOther text ps := by
  cases h with
  | empty => exact .empty
  | alone h => exact .alone h
  | named h => exact .named (h.imp himp)

/-- A literal that stands alone has the name `value`. -/
theorem ArgumentText.names (h : ArgumentText IsName text ps) (hvalue : IsName "value".toList) :
    ∀ p ∈ ps, IsName p.1.toList := by
  cases h with
  | empty => simp
  | alone h => simpa using hvalue
  | named h => exact h.names

/-- Each argument stands for a literal. -/
theorem ArgumentText.literal (h : ArgumentText IsName text ps) :
    ∀ p ∈ ps, ∃ value, Literal value p.2 := by
  cases h with
  | empty => simp
  | alone h => simpa using ⟨_, h⟩
  | named h =>
      induction h with
      | single h =>
          obtain ⟨-, -, hvalue, -⟩ := h
          simpa using ⟨_, hvalue⟩
      | more h hrest ih =>
          obtain ⟨-, -, hvalue, -⟩ := h
          simpa using ⟨⟨_, hvalue⟩, by simpa using ih⟩

/-! ## Reading what the grammar says -/

theorem Assigns.closed (h : Assigns LooseName part p) : Closed part := by
  obtain ⟨hname, hleft, hvalue, hright⟩ := h
  have hequals : Closed ['='] := closed_of_notMem (by decide) (by decide)
  have hbefore := (closed_of_notMem hname.noQuote hname.noComma).padded hleft
  exact hbefore.append (hequals.append (hvalue.atom.closed.padded hright))

/-- Assignments are written part by part. -/
theorem arguments_iff : Arguments LooseName text ps
    ↔ List.Forall₂ (Assigns LooseName) (splitArguments .outside text) ps := by
  constructor
  · intro h
    induction h with
    | single h =>
        rw [splitArguments_of_noComma h.closed.noComma]
        exact .cons h .nil
    | more h hrest ih =>
        rw [splitArguments_append_cons h.closed.noComma h.closed.afterAll]
        exact .cons h ih
  · intro h
    generalize hparts : splitArguments .outside text = parts at h
    induction h generalizing text with
    | nil => exact absurd hparts (splitArguments_ne_nil _ text)
    | cons h hrest ih =>
        rcases eq_of_splitArguments hparts with ⟨-, ⟨rfl, rfl⟩ | ⟨rest, rfl, hothers⟩⟩
        · cases hrest
          exact .single h
        · exact .more h (ih hothers)

/-- A part is read as an argument, where it is one of so many. -/
def ReadsAs (count : ℕ) (part : List Char) (p : String × Argument) : Prop :=
  ∃ name value, namedArgument? count part = some (name, value) ∧ p.1 = String.ofList name
    ∧ argument? value = some p.2

/-- Parts are read if each of them is, and the arguments go into the map one by one. -/
theorem readArguments_eq_ok_iff {line : String} {count : ℕ} {acc m : OrderedMap Argument} :
    readArguments line count acc parts = .ok m
      ↔ ∃ ps, List.Forall₂ (ReadsAs count) parts ps ∧ m = acc.insertAll ps := by
  induction parts generalizing acc with
  | nil =>
      rw [readArguments, Except.ok.injEq]
      constructor
      · rintro rfl
        exact ⟨[], .nil, rfl⟩
      · rintro ⟨ps, hps, rfl⟩
        cases hps
        rfl
  | cons part rest ih =>
      constructor
      · intro h
        unfold readArguments at h
        split at h
        · cases h
        · rename_i name value hnamed
          split at h
          · cases h
          · rename_i found hfound
            obtain ⟨ps, hps, rfl⟩ := ih.1 h
            exact ⟨(String.ofList name, found) :: ps, .cons ⟨_, _, hnamed, rfl, hfound⟩ hps, rfl⟩
      · rintro ⟨ps, hps, rfl⟩
        cases hps with
        | @cons _ p _ ps hpart hrest =>
            obtain ⟨name, value, hnamed, hname, hvalue⟩ := hpart
            have hread : readArguments line count (acc.insert p.1 p.2) rest
                = .ok (acc.insertAll (p :: ps)) := ih.2 ⟨ps, hrest, rfl⟩
            simpa only [readArguments, hnamed, hvalue, ← hname] using hread

theorem Assigns.splitAssignment?_eq (h : Assigns LooseName part p) :
    ∃ left right, splitAssignment? part = some (left, right)
      ∧ p.1 = String.ofList (Text.trim left) ∧ argument? (Text.trim right) = some p.2 := by
  obtain ⟨hname, hleft, hvalue, hright⟩ := h
  have hequals := mt (hleft.mem_of_not_blank (c := '=') rfl) hname.noEquals
  have hquote := mt (hleft.mem_of_not_blank (c := '\x22') rfl) hname.noQuote
  refine ⟨_, _, splitAssignment?_eq_some_iff.2 ⟨rfl, hequals, hquote⟩, ?_, ?_⟩
  · rw [Text.trim_eq_iff.2 ⟨hleft, hname.trimmed⟩]
  · rw [Text.trim_eq_iff.2 ⟨hright, hvalue.atom.trimmed⟩]
    exact (argument?_eq_some_iff.2 hvalue).1

theorem Assigns.readsAs (h : Assigns LooseName part p) (count : ℕ) : ReadsAs count part p := by
  obtain ⟨left, right, hcut, hname, hvalue⟩ := h.splitAssignment?_eq
  exact ⟨Text.trim left, Text.trim right, by rw [namedArgument?, hcut], hname, hvalue⟩

/-- A part that is read is an assignment; or it is a literal, and the only part. -/
theorem ReadsAs.assigns_or {count : ℕ} (h : ReadsAs count part p)
    (hcomma : NoComma .outside part) (hline : '\n' ∉ part) :
    Assigns LooseName part p
      ∨ count = 1 ∧ p.1 = "value" ∧ Literal (Text.trim part) p.2 := by
  obtain ⟨name, value, hnamed, hname, hvalue⟩ := h
  have hnot (more : List Char) (hsubset : more ⊆ part) : '\n' ∉ Text.trim more :=
    fun hmem => hline (hsubset ((Text.padded_trim more).subset hmem))
  unfold namedArgument? at hnamed
  split at hnamed
  · rename_i left right hcut
    cases hnamed
    left
    obtain ⟨rfl, hequals, hquote⟩ := splitAssignment?_eq_some_iff.1 hcut
    have hleft := Text.padded_trim left
    have hnoComma := comma_notMem (noComma_append.1 hcomma).1 hquote
    have hloose : LooseName (Text.trim left) :=
      ⟨Text.trimmed_trim left, fun hmem => hequals (hleft.subset hmem),
        fun hmem => hquote (hleft.subset hmem), fun hmem => hnoComma (hleft.subset hmem)⟩
    have hliteral := argument?_eq_some_iff.1
      ⟨hvalue, hnot right fun c hc => List.mem_append_right left (List.mem_cons_of_mem '=' hc)⟩
    obtain ⟨n, a⟩ := p
    cases hname
    exact .mk hloose hleft hliteral (Text.padded_trim right)
  · split at hnamed
    · rename_i hone
      cases hnamed
      right
      exact ⟨hone, hname, argument?_eq_some_iff.1 ⟨hvalue, hnot part (List.Subset.refl _)⟩⟩
    · cases hnamed

/-- **What the grammar says is read**, part by part. -/
theorem ArgumentText.reads (h : ArgumentText LooseName text ps) (hne : text ≠ []) :
    List.Forall₂ (ReadsAs (splitArguments .outside text).length) (splitArguments .outside text)
      ps := by
  cases h with
  | empty => exact absurd rfl hne
  | @alone _ a h =>
      have hatom := h.atom
      rw [splitArguments_of_noComma hatom.closed.noComma]
      refine .cons ⟨"value".toList, text, ?_, rfl, (argument?_eq_some_iff.2 h).1⟩ .nil
      simp [namedArgument?, hatom.splitAssignment?_eq_none, hatom.trimmed.trim_eq]
  | named h =>
      apply (arguments_iff.1 h).imp
      intro part p hpart
      exact hpart.readsAs _

/-- **What is read is as the grammar says**, with whatever is taken for a name. -/
theorem argumentText_of_reads (htrimmed : Trimmed text) (hline : '\n' ∉ text)
    (h : List.Forall₂ (ReadsAs (splitArguments .outside text).length)
      (splitArguments .outside text) ps) :
    ArgumentText LooseName text ps := by
  have hparts : ∀ part ∈ splitArguments .outside text, NoComma .outside part ∧ '\n' ∉ part := by
    intro part hpart
    obtain ⟨hnone, hsubset⟩ := noComma_of_mem_splitArguments hpart
    exact ⟨hnone, fun hmem => hline (hsubset hmem)⟩
  have hall := List.forall₂_and_left _ _ |>.2 ⟨hparts, h⟩
  by_cases hone : (splitArguments .outside text).length = 1
  · -- The only part is the whole text.
    obtain ⟨part, hpart⟩ := List.length_eq_one_iff.1 hone
    rw [hpart] at hall
    cases hall with
    | @cons _ p _ ps hread hrest =>
        cases hrest
        rcases (eq_of_splitArguments hpart).2 with ⟨-, rfl⟩ | ⟨rest, -, hnil⟩
        · rcases hread.2.assigns_or hread.1.1 hread.1.2 with hassigns | ⟨-, hname, hvalue⟩
          · exact .named (.single hassigns)
          · rw [htrimmed.trim_eq] at hvalue
            obtain ⟨n, a⟩ := p
            cases hname
            exact .alone hvalue
        · exact absurd hnil (splitArguments_ne_nil _ rest)
  · apply ArgumentText.named
    apply arguments_iff.2
    apply hall.imp
    rintro part p ⟨⟨hnone, hline⟩, hread⟩
    rcases hread.assigns_or hnone hline with hassigns | ⟨hcount, -⟩
    · exact hassigns
    · exact absurd hcount hone

end Rule

end ApiTypes
