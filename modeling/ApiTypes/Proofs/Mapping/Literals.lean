import ApiTypes.Mapping.Rule
import ApiTypes.Proofs.Mapping.Spacing
import ApiTypes.Proofs.Mapping.Spelled

/-!
# Literals of arguments

The literals of arguments are strings, numbers, the two truth values, and names of classes with the
word `class` after them. Strings, numbers and truth values stand for themselves. The name of a class
is kept without its package, and is needed as a whole. `Rule.Literal` says this as a grammar, and
what is read as an argument is what is a literal (`Rule.argument?_eq_some_iff`), as long as no line
ends in the text.
-/

set_option autoImplicit false

namespace ApiTypes

namespace Text

/-! ## Characters that mean nothing to a reader of arguments -/

/-- A character that is no blank, and neither a quote nor a comma nor an equals sign. -/
structure Plain (c : Char) : Prop where
  /-- It is no blank. -/
  isBlank : isBlank c = false
  /-- It is no quote. -/
  ne_quote : c ≠ '\x22'
  /-- It is no comma. -/
  ne_comma : c ≠ ','
  /-- It is no equals sign. -/
  ne_equals : c ≠ '='

/-- A text with characters, all of them plain. -/
structure IsWord (text : List Char) : Prop where
  /-- There are characters. -/
  ne_nil : text ≠ []
  /-- They are plain. -/
  plain : ∀ c ∈ text, Plain c

theorem IsWord.trimmed {text : List Char} (h : IsWord text) : Trimmed text :=
  .of_forall fun c hc => (h.plain c hc).isBlank

theorem Plain.ne_lineEnd {c : Char} (h : Plain c) : c ≠ '\n' := by
  rintro rfl
  cases h.isBlank

/-- No digit is between two code points if no span of digits is. -/
theorem any_digitSpans_eq_false {first last n : ℕ}
    (h : digitSpans.all (fun span => span.2 < first || last < span.1) = true)
    (hfirst : first ≤ n) (hlast : n ≤ last) :
    digitSpans.any (fun span => span.1 ≤ n && n ≤ span.2) = false := by
  rw [Array.any_eq_false]
  intro i hi hspan
  have hapart := Array.all_eq_true.1 h i hi
  simp only [Bool.or_eq_true, Bool.and_eq_true, decide_eq_true_eq] at hapart hspan
  omega

/-- No digit of any script is a blank. -/
theorem not_isBlank_of_isDecimalDigit {c : Char} (h : isDecimalDigit c = true) :
    isBlank c = false := by
  rw [isDecimalDigit] at h
  split at h
  · have hdigit : 48 ≤ c.toNat ∧ c.toNat ≤ 57 := by
      simpa [Char.isDigit, UInt32.le_iff_toNat_le, ← Char.toNat_val] using h
    simp only [isBlank, Bool.or_eq_false_iff, Bool.and_eq_false_iff, decide_eq_false_iff_not,
      beq_eq_false_iff_ne]
    omega
  · rename_i hlarge
    have hnot (first last : ℕ)
        (hspans : digitSpans.all (fun span => span.2 < first || last < span.1) = true) :
        ¬ (first ≤ c.toNat ∧ c.toNat ≤ last) := by
      rintro ⟨hfirst, hlast⟩
      rw [any_digitSpans_eq_false hspans hfirst hlast] at h
      cases h
    -- The spans of digits leave out every span of blanks above the first code points.
    have h1 := hnot 0x85 0x85 (by decide +kernel)
    have h2 := hnot 0xA0 0xA0 (by decide +kernel)
    have h3 := hnot 0x1680 0x1680 (by decide +kernel)
    have h4 := hnot 0x2000 0x3000 (by decide +kernel)
    simp only [isBlank, Bool.or_eq_false_iff, Bool.and_eq_false_iff, decide_eq_false_iff_not,
      beq_eq_false_iff_ne]
    omega

theorem plain_of_isDecimalDigit {c : Char} (h : isDecimalDigit c = true) : Plain c := by
  refine ⟨not_isBlank_of_isDecimalDigit h, ?_, ?_, ?_⟩
  all_goals
    rintro rfl
    exact absurd h (by decide +kernel)

end Text

namespace Rule

open Text (Plain)

/-- The characters of names of classes are among those of names in targets. -/
theorem plain_of_isClassPart {c : Char} (h : isClassPart c = true) : Plain c := by
  have hname : TypeExpr.isNamePart c = true := by
    simp only [isClassPart, TypeExpr.isNamePart, Bool.or_eq_true] at h ⊢
    tauto
  refine ⟨TypeExpr.not_isBlank_of_isNamePart hname, ?_, ?_, ?_⟩
  all_goals
    rintro rfl
    exact absurd h (by decide)

/-! ## Strings -/

/-- What stands between the quotes of a string: characters other than quotes and backslashes, and
characters after a backslash. No line ends in it. -/
inductive StringBody : List Char → Prop
  /-- Nothing is left. -/
  | nil : StringBody []
  /-- A character that stands for itself. -/
  | plain {c : Char} {rest : List Char} (hquote : c ≠ '\x22') (hescape : c ≠ '\x5c')
      (hline : c ≠ '\n') (h : StringBody rest) : StringBody (c :: rest)
  /-- A character after a backslash. -/
  | escaped {c : Char} {rest : List Char} (hline : c ≠ '\n') (h : StringBody rest) :
      StringBody ('\x5c' :: c :: rest)

/-- A text with quotes around it. -/
def quoted (body : List Char) : List Char :=
  '\x22' :: (body ++ ['\x22'])

variable {text value body : List Char} {a : Argument}

theorem StringBody.lineEnd_notMem (h : StringBody body) : '\n' ∉ body := by
  induction h with
  | nil => simp
  | plain hquote hescape hline h ih => simp [ih, Ne.symm hline]
  | escaped hline h ih => simp [ih, Ne.symm hline]

/-- A string is read up to the quote that ends it. -/
theorem isStringRest_of_body (h : StringBody body) : isStringRest (body ++ ['\x22']) = true := by
  induction h with
  | nil => rfl
  | @plain c rest hquote hescape hline h ih =>
      rw [List.cons_append, isStringRest.eq_5]
      · exact ih
      · simp [hquote]
      · exact hquote
      · exact fun _ _ hc _ => hescape hc
  | @escaped c rest hline h ih =>
      rw [List.cons_append, List.cons_append, isStringRest]
      simp [hline, ih]

/-- A string that was read has a body, if no line ends in it. -/
theorem exists_body_of_isStringRest (h : isStringRest text = true) (hline : '\n' ∉ text) :
    ∃ body, StringBody body ∧ text = body ++ ['\x22'] := by
  induction text using isStringRest.induct with
  | case1 => cases h
  | case2 => exact ⟨[], .nil, rfl⟩
  | case3 rest hne =>
      rw [isStringRest] at h
      · cases h
      · exact hne
  | case4 c rest ih =>
      simp only [isStringRest, Bool.and_eq_true, bne_iff_ne] at h
      rw [List.mem_cons, List.mem_cons, not_or, not_or] at hline
      obtain ⟨body, hbody, rfl⟩ := ih h.2 hline.2.2
      exact ⟨'\x5c' :: c :: body, .escaped h.1 hbody, rfl⟩
  | case5 c rest hlast hquote hescape ih =>
      rw [isStringRest.eq_5 c rest hlast hquote hescape] at h
      rw [List.mem_cons, not_or] at hline
      obtain ⟨body, hbody, rfl⟩ := ih h hline.2
      have hplain : c ≠ '\x5c' := by
        -- At least the last quote comes after a backslash.
        rintro rfl
        obtain ⟨d, rest, hrest⟩ := List.exists_cons_of_ne_nil (l := body ++ ['\x22']) (by simp)
        exact hescape d rest rfl hrest
      exact ⟨c :: body, .plain hquote hplain (Ne.symm hline.1) hbody, rfl⟩

theorem isString_iff : isString text = true ∧ '\n' ∉ text
    ↔ ∃ body, StringBody body ∧ text = quoted body := by
  constructor
  · rintro ⟨h, hline⟩
    unfold isString at h
    split at h
    · rw [List.mem_cons, not_or] at hline
      obtain ⟨body, hbody, rfl⟩ := exists_body_of_isStringRest h hline.2
      exact ⟨body, hbody, rfl⟩
    · cases h
  · rintro ⟨body, hbody, rfl⟩
    refine ⟨isStringRest_of_body hbody, ?_⟩
    simp [quoted, hbody.lineEnd_notMem]

/-! ## Numbers -/

/-- Digits, and digits after a point if there is one. -/
inductive Unsigned : List Char → Prop
  /-- A whole number. -/
  | whole {digits : List Char} (h : isDigits digits = true) : Unsigned digits
  /-- A number with a fraction. -/
  | fraction {digits more : List Char} (h : isDigits digits = true) (hmore : isDigits more = true) :
      Unsigned (digits ++ '.' :: more)

/-- A number, and a minus sign before it if it is negative. -/
inductive Number : List Char → Prop
  /-- A number without a sign. -/
  | unsigned {text : List Char} (h : Unsigned text) : Number text
  /-- A negative number. -/
  | negative {text : List Char} (h : Unsigned text) : Number ('-' :: text)

theorem isDigits_iff : isDigits text = true
    ↔ text ≠ [] ∧ ∀ c ∈ text, Text.isDecimalDigit c = true := by
  simp [isDigits]

/-- A number without a sign is read as digits, and a fraction if there is one. -/
def readsUnsigned (text : List Char) : Bool :=
  match text.dropWhile Text.isDecimalDigit with
  | [] => !(text.takeWhile Text.isDecimalDigit).isEmpty
  | c :: fraction =>
      !(text.takeWhile Text.isDecimalDigit).isEmpty && c == '.' && isDigits fraction

theorem readsUnsigned_of_unsigned (h : Unsigned text) : readsUnsigned text = true := by
  cases h with
  | whole h =>
      obtain ⟨hne, hall⟩ := isDigits_iff.1 h
      have htake := List.takeWhile_eq_self_iff.2 hall
      have hdrop := List.dropWhile_eq_nil_iff.2 hall
      simp [readsUnsigned, htake, hdrop, hne]
  | @fraction digits more h hmore =>
      obtain ⟨hne, hall⟩ := isDigits_iff.1 h
      have hpoint : Text.isDecimalDigit '.' = false := by decide
      obtain ⟨htake, hdrop⟩ := TypeExpr.Token.takeWhile_append_cons hpoint digits more
      rw [List.takeWhile_eq_self_iff.2 hall] at htake
      rw [List.dropWhile_eq_nil_iff.2 hall, List.nil_append] at hdrop
      simp [readsUnsigned, htake, hdrop, hne, hmore]

theorem unsigned_of_readsUnsigned (h : readsUnsigned text = true) : Unsigned text := by
  have hsplit := List.takeWhile_append_dropWhile (p := Text.isDecimalDigit) (l := text)
  have hall : ∀ c ∈ text.takeWhile Text.isDecimalDigit, Text.isDecimalDigit c = true :=
    fun c hc => List.mem_takeWhile_imp hc
  unfold readsUnsigned at h
  generalize text.takeWhile Text.isDecimalDigit = digits at h hsplit hall
  generalize text.dropWhile Text.isDecimalDigit = rest at h hsplit
  subst hsplit
  split at h
  · rw [List.append_nil]
    exact .whole (isDigits_iff.2 ⟨by simpa using h, hall⟩)
  · rename_i c more
    simp only [Bool.and_eq_true, Bool.not_eq_true', List.isEmpty_eq_false_iff, beq_iff_eq] at h
    obtain ⟨⟨hne, rfl⟩, hmore⟩ := h
    exact .fraction (isDigits_iff.2 ⟨hne, hall⟩) hmore

theorem readsUnsigned_iff : readsUnsigned text = true ↔ Unsigned text :=
  ⟨unsigned_of_readsUnsigned, readsUnsigned_of_unsigned⟩

theorem Unsigned.exists_digit (h : Unsigned text) :
    ∃ c rest, text = c :: rest ∧ Text.isDecimalDigit c = true := by
  have hdigits : ∃ digits more, text = digits ++ more ∧ isDigits digits = true := by
    cases h with
    | whole h => exact ⟨text, [], by simp, h⟩
    | fraction h hmore => exact ⟨_, _, rfl, h⟩
  obtain ⟨digits, more, rfl, hdigits⟩ := hdigits
  obtain ⟨hne, hall⟩ := isDigits_iff.1 hdigits
  obtain ⟨c, rest, rfl⟩ := List.exists_cons_of_ne_nil hne
  exact ⟨c, rest ++ more, rfl, hall c (by simp)⟩

theorem isNumber_minus (text : List Char) : isNumber ('-' :: text) = readsUnsigned text := rfl

theorem isNumber_cons {c : Char} (h : c ≠ '-') (text : List Char) :
    isNumber (c :: text) = readsUnsigned (c :: text) := by
  unfold isNumber
  split
  · rename_i heq
    exact absurd (List.cons.inj heq).1 h
  · rfl

theorem isNumber_iff : isNumber text = true ↔ Number text := by
  constructor
  · intro h
    cases text with
    | nil => cases h
    | cons c rest =>
        by_cases hc : c = '-'
        · subst hc
          rw [isNumber_minus, readsUnsigned_iff] at h
          exact .negative h
        · rw [isNumber_cons hc, readsUnsigned_iff] at h
          exact .unsigned h
  · intro h
    cases h with
    | unsigned h =>
        obtain ⟨c, rest, rfl, hc⟩ := h.exists_digit
        have hne : c ≠ '-' := by
          rintro rfl
          exact absurd hc (by decide)
        rw [isNumber_cons hne, readsUnsigned_iff]
        exact h
    | negative h => rwa [isNumber_minus, readsUnsigned_iff]

/-- The characters of a number. -/
theorem Number.char_cases (h : Number text) :
    ∀ c ∈ text, Text.isDecimalDigit c = true ∨ c = '.' ∨ c = '-' := by
  have hdigits : ∀ digits : List Char, isDigits digits = true →
      ∀ c ∈ digits, Text.isDecimalDigit c = true := fun digits h => (isDigits_iff.1 h).2
  have hunsigned : ∀ text, Unsigned text →
      ∀ c ∈ text, Text.isDecimalDigit c = true ∨ c = '.' ∨ c = '-' := by
    intro text h c hc
    cases h with
    | whole h => exact .inl (hdigits _ h c hc)
    | fraction h hmore =>
        rcases List.mem_append.1 hc with hc | hc
        · exact .inl (hdigits _ h c hc)
        · rcases List.mem_cons.1 hc with rfl | hc
          · exact .inr (.inl rfl)
          · exact .inl (hdigits _ hmore c hc)
  intro c hc
  cases h with
  | unsigned h => exact hunsigned _ h c hc
  | negative h =>
      rcases List.mem_cons.1 hc with rfl | hc
      · exact .inr (.inr rfl)
      · exact hunsigned _ h c hc

theorem Number.isWord (h : Number text) : Text.IsWord text := by
  constructor
  · rintro rfl
    exact absurd (isNumber_iff.2 h) (by decide)
  · intro c hc
    rcases h.char_cases c hc with hdigit | rfl | rfl
    · exact Text.plain_of_isDecimalDigit hdigit
    · exact ⟨rfl, by decide, by decide, by decide⟩
    · exact ⟨rfl, by decide, by decide, by decide⟩

/-! ## Names of classes -/

/-- The part of a qualified name after its last point, the whole of it where there is none. -/
def IsLastPart (last name : List Char) : Prop :=
  '.' ∉ last ∧ (name = last ∨ ∃ package, name = package ++ '.' :: last)

theorem isLastPart_iff {last name : List Char} :
    IsLastPart last name ↔ (splitQualified name).2 = last := by
  constructor
  · rintro ⟨hlast, rfl | ⟨package, rfl⟩⟩
    · rw [splitQualified_of_not_mem hlast]
    · rw [splitQualified_append_cons hlast]
  · rintro rfl
    rcases exists_last_point name with hnone | ⟨package, last, rfl, hlast⟩
    · rw [splitQualified_of_not_mem hnone]
      exact ⟨hnone, .inl rfl⟩
    · rw [splitQualified_append_cons hlast]
      exact ⟨hlast, .inr ⟨package, rfl⟩⟩

theorem className?_eq_some_iff {name : List Char} : className? text = some name
    ↔ text = name ++ ".class".toList ∧ isClassName name = true := by
  unfold className?
  simp only
  constructor
  · intro h
    split at h
    · rename_i hname
      cases h
      rw [Bool.and_eq_true, beq_iff_eq] at hname
      exact hname
    · cases h
  · rintro ⟨rfl, hname⟩
    have htake : (name ++ ".class".toList).take
        ((name ++ ".class".toList).length - ".class".toList.length) = name := by
      rw [List.length_append, Nat.add_sub_cancel, List.take_left' rfl]
    rw [htake]
    simp [hname]

theorem isClassName_cons {c : Char} {rest : List Char} (h : isClassName (c :: rest) = true) :
    isClassStart c = true ∧ ∀ d ∈ rest, isClassPart d = true := by
  simpa [isClassName] using h

theorem isClassPart_of_isClassStart {c : Char} (h : isClassStart c = true) :
    isClassPart c = true := by
  simp only [isClassStart, isClassPart, Char.isAlphanum, Bool.or_eq_true] at h ⊢
  tauto

/-- No name of a class begins with a digit. -/
theorem not_isDecimalDigit_of_isClassStart {c : Char} (h : isClassStart c = true) :
    Text.isDecimalDigit c = false := by
  simp only [isClassStart, Text.isAlpha_iff, Bool.or_eq_true, beq_iff_eq] at h
  rcases h with (h | rfl) | rfl
  · have hsmall : c.toNat < 0x80 := by omega
    rw [Text.isDecimalDigit, if_pos hsmall]
    simp only [Char.isDigit, Bool.and_eq_false_iff, decide_eq_false_iff_not,
      UInt32.le_iff_toNat_le, ge_iff_le, Char.toNat_val]
    change ¬ 48 ≤ c.toNat ∨ ¬ c.toNat ≤ 57
    omega
  · decide
  · decide

theorem isClassPart_of_isClassName {name : List Char} (h : isClassName name = true) :
    ∀ c ∈ name, isClassPart c = true := by
  intro c hc
  cases name with
  | nil => cases hc
  | cons d rest =>
      obtain ⟨hd, hrest⟩ := isClassName_cons h
      rcases List.mem_cons.1 hc with rfl | hc
      · exact isClassPart_of_isClassStart hd
      · exact hrest c hc

theorem isWord_of_isClassName {name : List Char} (h : isClassName name = true) :
    Text.IsWord name := by
  refine ⟨?_, fun c hc => plain_of_isClassPart (isClassPart_of_isClassName h c hc)⟩
  rintro rfl
  cases h

/-! ## Literals -/

/-- The literals of arguments, each with the argument that it stands for. -/
inductive Literal : List Char → Argument → Prop
  /-- A string stands for itself. -/
  | string {body : List Char} (h : StringBody body) :
      Literal (quoted body) ⟨String.ofList (quoted body), none⟩
  /-- So does a number. -/
  | number {text : List Char} (h : Number text) : Literal text ⟨String.ofList text, none⟩
  /-- So does a truth value. -/
  | boolean (b : Bool) : Literal (toString b).toList ⟨toString b, none⟩
  /-- A class is called by the last part of its name, and is needed by the whole name. -/
  | classOf {name last : List Char} (h : isClassName name = true) (hlast : IsLastPart last name) :
      Literal (name ++ ".class".toList)
        ⟨String.ofList (last ++ ".class".toList), some (String.ofList name)⟩

/-- A string, or a word. This is what a literal is, and the text of the argument it stands for. -/
inductive Atom : List Char → Prop
  /-- A string. -/
  | string {body : List Char} (h : StringBody body) : Atom (quoted body)
  /-- A word. -/
  | word {text : List Char} (h : Text.IsWord text) : Atom text

theorem Atom.ne_nil (h : Atom value) : value ≠ [] := by
  cases h with
  | string h => simp [quoted]
  | word h => exact h.ne_nil

theorem Atom.trimmed (h : Atom value) : Text.Trimmed value := by
  cases h with
  | @string body h =>
      -- There is a quote at either end.
      have hlast : (quoted body).getLast? = some '\x22' := by
        rw [quoted, List.getLast?_cons_of_ne_nil (by simp), List.getLast?_concat]
      constructor
      · intro c hc
        cases hc
        rfl
      · intro c hc
        cases hlast.symm.trans hc
        rfl
  | word h => exact h.trimmed

theorem Atom.lineEnd_notMem (h : Atom value) : '\n' ∉ value := by
  cases h with
  | string h => simp [quoted, h.lineEnd_notMem]
  | word h =>
      intro hmem
      exact (h.plain _ hmem).ne_lineEnd rfl

/-- A class literal has no characters but those of names of classes. -/
theorem atom_of_classPart {name : List Char} (h : ∀ c ∈ name, isClassPart c = true) :
    Atom (name ++ ".class".toList) := by
  have hword : ∀ c ∈ ".class".toList, isClassPart c = true := List.all_eq_true.1 (by decide)
  refine .word ⟨by simp, fun c hc => plain_of_isClassPart ?_⟩
  rcases List.mem_append.1 hc with hc | hc
  · exact h c hc
  · exact hword c hc

theorem Literal.atom (h : Literal value a) : Atom value := by
  cases h with
  | string h => exact .string h
  | number h => exact .word h.isWord
  | boolean b =>
      have hword : ∀ c ∈ (toString b).toList, isClassPart c = true :=
        List.all_eq_true.1 (by cases b <;> decide)
      exact .word ⟨by cases b <;> decide, fun c hc => plain_of_isClassPart (hword c hc)⟩
  | classOf h hlast => exact atom_of_classPart (isClassPart_of_isClassName h)

/-- The last part of a name has no characters but those of the name. -/
theorem IsLastPart.subset {last name : List Char} (h : IsLastPart last name) : last ⊆ name := by
  obtain ⟨-, rfl | ⟨package, rfl⟩⟩ := h
  · exact List.Subset.refl name
  · intro c hc
    simp [hc]

theorem Literal.atom_value (h : Literal value a) : Atom a.value.toList := by
  cases h with
  | string h => simpa using Atom.string h
  | number h => simpa using Atom.word h.isWord
  | boolean b => exact (Literal.boolean b).atom
  | classOf h hlast =>
      rw [String.toList_ofList]
      exact atom_of_classPart fun c hc => isClassPart_of_isClassName h c (hlast.subset hc)

/-- The texts that stand for themselves are read before a name of a class is looked for. -/
theorem argument?_eq (value : List Char) : argument? value =
    if isString value = true ∨ isNumber value = true ∨ value = "true".toList
        ∨ value = "false".toList then
      some ⟨String.ofList value, none⟩
    else
      (className? value).map fun name =>
        ⟨String.ofList ((splitQualified name).2 ++ ".class".toList), some (String.ofList name)⟩ := by
  have hword (word : String) : String.ofList value = word ↔ value = word.toList := by
    rw [← String.toList_inj, String.toList_ofList]
  unfold argument?
  simp only [Bool.or_eq_true, beq_iff_eq, hword, or_assoc]
  split
  · rfl
  · cases className? value <;> rfl

/-- A class literal is none of the texts that stand for themselves. -/
theorem not_itself_of_className {name : List Char} (h : isClassName name = true) :
    ¬ (isString (name ++ ".class".toList) = true ∨ isNumber (name ++ ".class".toList) = true
      ∨ name ++ ".class".toList = "true".toList ∨ name ++ ".class".toList = "false".toList) := by
  obtain ⟨c, rest, rfl⟩ := List.exists_cons_of_ne_nil (l := name) (by rintro rfl; cases h)
  have hstart := (isClassName_cons h).1
  have hpoint : '.' ∈ c :: rest ++ ".class".toList := by simp
  rintro (hstring | hnumber | htrue | hfalse)
  · unfold isString at hstring
    split at hstring
    · rename_i heq
      cases heq
      exact absurd hstart (by decide)
    · cases hstring
  · -- A number begins with a digit, or with a minus sign.
    have hfirst : c = '-' ∨ Text.isDecimalDigit c = true := by
      rw [isNumber_iff] at hnumber
      cases hnumber with
      | negative h => exact .inl rfl
      | unsigned h =>
          obtain ⟨d, more, heq, hd⟩ := h.exists_digit
          cases heq
          exact .inr hd
    rcases hfirst with rfl | hdigit
    · exact absurd hstart (by decide)
    · rw [not_isDecimalDigit_of_isClassStart hstart] at hdigit
      cases hdigit
  · rw [htrue] at hpoint
    exact absurd hpoint (by decide)
  · rw [hfalse] at hpoint
    exact absurd hpoint (by decide)

/-- **What is read as an argument is a literal**, as long as no line ends in it. -/
theorem argument?_eq_some_iff : argument? value = some a ∧ '\n' ∉ value
    ↔ Literal value a := by
  constructor
  · rintro ⟨h, hline⟩
    rw [argument?_eq] at h
    split at h
    · rename_i hitself
      cases h
      rcases hitself with hstring | hnumber | rfl | rfl
      · obtain ⟨body, hbody, rfl⟩ := isString_iff.1 ⟨hstring, hline⟩
        exact .string hbody
      · exact .number (isNumber_iff.1 hnumber)
      · exact .boolean true
      · exact .boolean false
    · obtain ⟨name, hname, rfl⟩ := Option.map_eq_some_iff.1 h
      obtain ⟨rfl, hclass⟩ := className?_eq_some_iff.1 hname
      exact .classOf hclass (isLastPart_iff.2 rfl)
  · intro h
    refine ⟨?_, h.atom.lineEnd_notMem⟩
    rw [argument?_eq]
    cases h with
    | string h => exact if_pos (.inl (isString_iff.2 ⟨_, h, rfl⟩).1)
    | number h => exact if_pos (.inr (.inl (isNumber_iff.2 h)))
    | boolean b =>
        cases b with
        | true => exact if_pos (.inr (.inr (.inl rfl)))
        | false => exact if_pos (.inr (.inr (.inr rfl)))
    | classOf h hlast =>
        rw [if_neg (not_itself_of_className h), className?_eq_some_iff.2 ⟨rfl, h⟩,
          Option.map_some, isLastPart_iff.1 hlast]

end Rule

end ApiTypes
