import ApiTypes.Proofs.Mapping.Arguments
import ApiTypes.Text.Quoted

/-!
# Texts as string literals

A text becomes a string literal in two passes over the whole of it: backslashes are doubled, and
then a backslash is put before each quote (`Text.toList_literal_eq_replaceChar`). In the other order
the second pass would double the backslashes of the first one. What comes out is one string for the
readers of annotations, whatever the text is, and it is read back as the text
(`Text.Spells.literal`). A literal spells one text only, so no two texts have the same literal.
-/

set_option autoImplicit false

namespace ApiTypes

namespace Text

variable {text : List Char}

/-! ## Two passes -/

/-- Puts a text in the place of each occurrence of a character. -/
def replaceChar (c : Char) (image text : List Char) : List Char :=
  text.flatMap fun d => if d = c then image else [d]

theorem replaceChar_cons (c d : Char) (image rest : List Char) :
    replaceChar c image (d :: rest)
      = (if d = c then image else [d]) ++ replaceChar c image rest := by
  simp [replaceChar]

theorem escapeMark_ne_quoteMark : escapeMark ≠ quoteMark := by decide

/-- **Backslashes first, then quotes.** -/
theorem escapeLiteral_eq_replaceChar (text : List Char) :
    escapeLiteral text
      = replaceChar quoteMark [escapeMark, quoteMark]
          (replaceChar escapeMark [escapeMark, escapeMark] text) := by
  induction text with
  | nil => rfl
  | cons c rest ih =>
      by_cases hescape : c = escapeMark
      · -- The second pass does not see the backslashes of the first one as quotes.
        subst hescape
        simp [escapeLiteral, replaceChar_cons, escapeMark_ne_quoteMark, ih]
      · by_cases hquote : c = quoteMark
        · subst hquote
          simp [escapeLiteral, replaceChar_cons, hescape, ih]
        · simp [escapeLiteral, replaceChar_cons, hescape, hquote, ih]

/-- The other order does not give back a quote. -/
example : unescapeLiteral (replaceChar escapeMark [escapeMark, escapeMark]
    (replaceChar quoteMark [escapeMark, quoteMark] [quoteMark])) = none := by decide

/-! ## One string -/

/-- What is escaped is a string up to the quote after it. -/
theorem isStringRest_escapeLiteral (text : List Char) :
    Rule.isStringRest (escapeLiteral text ++ [quoteMark]) = true := by
  induction text with
  | nil => rfl
  | cons c rest ih =>
      by_cases h : c = escapeMark ∨ c = quoteMark
      · have hline : c ≠ '\n' := by
          rintro rfl
          exact absurd h (by decide)
        rw [escapeLiteral, if_pos h, List.cons_append, List.cons_append, escapeMark,
          Rule.isStringRest]
        simp [hline, ih]
      · -- Not the quote that ends the string, and no backslash that would hide it.
        obtain ⟨hescape, hquote⟩ := not_or.1 h
        rw [escapeLiteral, if_neg h, List.cons_append, Rule.isStringRest.eq_5]
        · exact ih
        · intro hc _
          exact hquote hc
        · exact hquote
        · intro _ _ hc _
          exact hescape hc

/-- A reader that cuts arguments at commas stays in the string up to the quote after it. -/
theorem inside_escapeLiteral (text : List Char) :
    Rule.NoComma .inside (escapeLiteral text)
      ∧ Rule.StringState.inside.afterAll (escapeLiteral text) = .inside := by
  induction text with
  | nil => exact ⟨trivial, rfl⟩
  | cons c rest ih =>
      by_cases h : c = escapeMark ∨ c = quoteMark
      · have hmark : Rule.StringState.inside.after escapeMark = .escaped := rfl
        have hafter : Rule.StringState.escaped.after c = .inside := rfl
        simp [escapeLiteral, h, Rule.NoComma, hmark, hafter, ih]
      · obtain ⟨hescape, hquote⟩ := not_or.1 h
        have hafter : Rule.StringState.inside.after c = .inside := by
          rw [escapeMark] at hescape
          rw [quoteMark] at hquote
          simp [Rule.StringState.after, hescape, hquote]
        simp [escapeLiteral, h, Rule.NoComma, hafter, ih]

theorem toList_literal (text : String) :
    (literal text).toList = Rule.quoted (escapeLiteral text.toList) :=
  String.toList_ofList

/-- A literal is made of a text in two passes over it. -/
theorem toList_literal_eq_replaceChar (text : String) :
    (literal text).toList
      = Rule.quoted (replaceChar quoteMark [escapeMark, quoteMark]
          (replaceChar escapeMark [escapeMark, escapeMark] text.toList)) := by
  rw [toList_literal, escapeLiteral_eq_replaceChar]

theorem closed_literal (text : String) : Rule.Closed (literal text).toList := by
  have hopen : Rule.StringState.outside.after quoteMark = .inside := rfl
  obtain ⟨hnone, hstate⟩ := inside_escapeLiteral text.toList
  rw [toList_literal]
  constructor
  · rw [Rule.quoted, Rule.NoComma, ← quoteMark, hopen, Rule.noComma_append, hstate]
    exact ⟨by decide, hnone, by simp [Rule.NoComma]⟩
  · rw [Rule.quoted, Rule.StringState.afterAll_cons, ← quoteMark, hopen,
      Rule.StringState.afterAll_append, hstate]
    rfl

/-! ## What a literal spells -/

/-- A string literal spells a text: annotations are read with it as one argument, a string that
stands for itself, and what stands between its quotes is read back as the text. -/
structure Spells (value text : String) : Prop where
  /-- It is a string for the grammar of arguments. -/
  isString : Rule.isString value.toList = true
  /-- As an argument it stands for itself. -/
  argument : Rule.argument? value.toList = some ⟨value, none⟩
  /-- It is not cut at commas in it. -/
  single : Rule.splitArguments .outside value.toList = [value.toList]
  /-- No quote and no backslash is left over between its quotes, and what is read is the text. -/
  reads : ∃ body, value.toList = Rule.quoted body ∧ unescapeLiteral body = some text.toList

/-- **The literal of a text spells it.** -/
theorem Spells.literal (text : String) : Spells (literal text) text := by
  have hstring : Rule.isString (Text.literal text).toList = true := by
    rw [toList_literal]
    exact isStringRest_escapeLiteral text.toList
  constructor
  · exact hstring
  · rw [Rule.argument?_eq, if_pos (.inl hstring), String.ofList_toList]
  · exact Rule.splitArguments_of_noComma (closed_literal text).noComma
  · exact ⟨escapeLiteral text.toList, toList_literal text, unescapeLiteral_escapeLiteral _⟩

/-- A literal spells one text. -/
theorem Spells.unique {value text other : String} (h : Spells value text)
    (hother : Spells value other) : text = other := by
  obtain ⟨body, hbody, hreads⟩ := h.reads
  obtain ⟨_, hsame, hagain⟩ := hother.reads
  rw [hbody] at hsame
  obtain rfl := List.append_cancel_right (List.cons.inj hsame).2
  rw [hreads, Option.some_inj, String.toList_inj] at hagain
  exact hagain

theorem literal_injective : Function.Injective literal := by
  intro text other h
  have hother := Spells.literal other
  rw [← h] at hother
  exact (Spells.literal text).unique hother

end Text

end ApiTypes
