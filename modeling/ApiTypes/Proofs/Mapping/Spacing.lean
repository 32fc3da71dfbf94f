import ApiTypes.Mapping.Rule
import ApiTypes.Proofs.Mapping.Tokens
import ApiTypes.Proofs.Text.Padding

/-!
# Blanks in type expressions

A type expression is written as its tokens, with blanks before, between and after them as one likes
(`Token.Spaced`). Every text is written so with the tokens that are scanned in it, and where no name
comes right after a name these are the only ones (`Token.scan_of_spaced`). So the texts that are
read as a type expression are those in which its tokens are written, for every type expression whose
names are names. Nothing gets lost: without its blanks, such a text is the type expression as it is
printed (`Rule.readTarget_spaced`).
-/

set_option autoImplicit false

namespace ApiTypes

theorem Text.isAlpha_iff {c : Char} : c.isAlpha = true
    ↔ (65 ≤ c.toNat ∧ c.toNat ≤ 90) ∨ (97 ≤ c.toNat ∧ c.toNat ≤ 122) := by
  change (decide ('A'.val ≤ c.val ∧ c.val ≤ 'Z'.val)
    || decide ('a'.val ≤ c.val) && decide (c.val ≤ 'z'.val)) = true ↔ _
  simp only [Bool.or_eq_true, Bool.and_eq_true, decide_eq_true_eq, UInt32.le_iff_toNat_le]
  rfl

namespace TypeExpr

theorem not_isBlank_of_isNamePart {c : Char} (h : isNamePart c = true) :
    Text.isBlank c = false := by
  -- All of these characters come after the blank and before the next one.
  have hrange : 0x24 ≤ c.toNat ∧ c.toNat ≤ 0x7d := by
    simp only [isNamePart, Char.isAlphanum, Text.isAlpha_iff, Char.isDigit, Bool.or_eq_true,
      Bool.and_eq_true, decide_eq_true_eq, beq_iff_eq, UInt32.le_iff_toNat_le, ge_iff_le] at h
    change (((((((((65 ≤ c.toNat ∧ c.toNat ≤ 90) ∨ (97 ≤ c.toNat ∧ c.toNat ≤ 122))
      ∨ (48 ≤ c.toNat ∧ c.toNat ≤ 57)) ∨ c = '_') ∨ c = '$') ∨ c = '.') ∨ c = '\x7b')
      ∨ c = '\x7d') ∨ c = '?') ∨ c = '-' at h
    rcases h with ((((((((h | h) | h) | rfl) | rfl) | rfl) | rfl) | rfl) | rfl) | rfl
    · omega
    · omega
    · omega
    all_goals decide
  simp only [Text.isBlank, Bool.or_eq_false_iff, Bool.and_eq_false_iff, decide_eq_false_iff_not,
    beq_eq_false_iff_ne]
  omega

namespace Token

/-- The characters of a token. -/
def chars : Token → List Char
  | name text => text
  | brackets => ['[', ']']
  | mark c => [c]

/-- Tokens are written in a text, with blanks before each of them and after the last one as one
likes. -/
inductive Spaced : List Token → List Char → Prop
  /-- Blanks at the end. -/
  | nil {blanks : List Char} (h : Text.AllBlank blanks) : Spaced [] blanks
  /-- Blanks, a token, and the text of the others. -/
  | cons {blanks text : List Char} {token : Token} {tokens : List Token}
      (hblanks : Text.AllBlank blanks) (h : Spaced tokens text) :
      Spaced (token :: tokens) (blanks ++ (token.chars ++ text))

/-- Tokens that can be told apart in a text: names are names, marks cut what is around them, and no
name comes right after a name. -/
def Separable : List Token → Prop
  | [] => True
  | name text :: rest =>
      isName text = true ∧ (∀ next, rest.head? ≠ some (name next)) ∧ Separable rest
  | brackets :: rest => Separable rest
  | mark c :: rest => Cuts c ∧ Separable rest

variable {text rest : List Char} {token : Token} {tokens : List Token}

/-! ## Scanning what is written -/

/-- The first token stands in the text after blanks, before the rest. -/
theorem eq_of_next? (h : next? text = some (token, rest)) :
    ∃ blanks, Text.AllBlank blanks ∧ text = blanks ++ (token.chars ++ rest) := by
  have hstart : Text.trimStart text = token.chars ++ rest := by
    cases token with
    | name found =>
        obtain ⟨c, more, htrim, -, rfl, rfl⟩ := next?_eq_name_iff.1 h
        rw [htrim, chars, List.cons_append, List.takeWhile_append_dropWhile]
    | brackets => exact next?_eq_brackets_iff.1 h
    | mark c => exact (next?_eq_mark_iff.1 h).1
  rw [← hstart]
  exact Text.exists_trimStart text

/-- The tokens that are scanned in a text are written in it. -/
theorem spaced_scan (text : List Char) : Spaced (scan text) text := by
  cases h : next? text with
  | none =>
      rw [scan_of_none h]
      apply Spaced.nil
      exact List.dropWhile_eq_nil_iff.1 (next?_eq_none_iff.1 h)
  | some found =>
      obtain ⟨token, rest⟩ := found
      have hlt := length_lt_of_next? h
      obtain ⟨blanks, hblanks, htext⟩ := eq_of_next? h
      rw [scan_of_some h]
      conv => arg 2; rw [htext]
      exact .cons hblanks (spaced_scan rest)
termination_by text.length

theorem scan_append_of_allBlank {blanks : List Char} (h : Text.AllBlank blanks)
    (text : List Char) : scan (blanks ++ text) = scan text := by
  rw [← scan_trimStart, Text.trimStart_of_isBlank h, scan_trimStart]

/-- Where tokens are written of which the first is no name, no name goes on. -/
theorem head_of_spaced (h : Spaced tokens text) (hsep : Separable tokens)
    (hhead : ∀ next, tokens.head? ≠ some (name next)) {c : Char} (hc : text.head? = some c) :
    isNamePart c = false := by
  have hblank : ∀ d, Text.isBlank d = true → isNamePart d = false := by
    intro d hd
    by_contra hpart
    rw [not_isBlank_of_isNamePart (by simpa using hpart)] at hd
    cases hd
  cases h with
  | nil h => exact hblank c (h c (List.mem_of_mem_head? hc))
  | @cons blanks text token tokens hblanks h =>
      cases blanks with
      | cons d blanks =>
          cases hc
          exact hblank c (hblanks c (by simp))
      | nil =>
          cases token with
          | name found => exact absurd rfl (hhead found)
          | brackets =>
              cases hc
              rfl
          | mark d =>
              cases hc
              exact hsep.1.isNamePart

/-- A token that is written first is scanned first. -/
theorem next?_of_spaced (h : Spaced tokens text) (hsep : Separable (token :: tokens)) :
    next? (token.chars ++ text) = some (token, text) := by
  cases token with
  | name found =>
      obtain ⟨hname, hhead, hrest⟩ := hsep
      obtain ⟨c, more, rfl⟩ := List.exists_cons_of_ne_nil (l := found) (by rintro rfl; cases hname)
      rw [isName, Bool.and_eq_true, List.all_eq_true] at hname
      have hc := isNamePart_of_isNameStart hname.1
      obtain ⟨htake, hdrop⟩ := Text.takeWhile_append_of_head hname.2 fun d hd =>
        head_of_spaced h hrest hhead hd
      rw [next?_eq_name_iff]
      refine ⟨c, more ++ text, ?_, hc, ?_, ?_⟩
      · rw [chars, List.cons_append, Text.trimStart_cons, not_isBlank_of_isNamePart hc]
        rfl
      · rw [htake]
      · rw [hdrop]
  | brackets => exact next?_eq_brackets_iff.2 rfl
  | mark c =>
      have hcuts := hsep.1
      refine next?_eq_mark_iff.2 ⟨?_, hcuts.isNamePart, fun hpair => hcuts.ne_open hpair.1⟩
      rw [chars, List.cons_append, Text.trimStart_cons, hcuts.isBlank]
      rfl

theorem Separable.tail (h : Separable (token :: tokens)) : Separable tokens := by
  cases token with
  | name text => exact h.2.2
  | brackets => exact h
  | mark c => exact h.2

/-- The tokens that are scanned are those that are written. -/
theorem scan_of_spaced (h : Spaced tokens text) (hsep : Separable tokens) :
    scan text = tokens := by
  induction h with
  | nil h => exact scan_of_none (next?_eq_none_iff.2 (List.dropWhile_eq_nil_iff.2 h))
  | cons hblanks h ih =>
      rw [scan_append_of_allBlank hblanks, scan_of_some (next?_of_spaced h hsep), ih hsep.tail]

/-- No token that can be told apart has a blank in it. -/
theorem Separable.not_isBlank (h : Separable (token :: tokens)) {c : Char}
    (hc : c ∈ token.chars) : Text.isBlank c = false := by
  cases token with
  | name text => exact not_isBlank_of_isNamePart (isNamePart_of_isName h.1 hc)
  | brackets =>
      rcases List.mem_pair.1 hc with rfl | rfl
      · rfl
      · rfl
  | mark d =>
      cases List.mem_singleton.1 hc
      exact h.1.isBlank

/-- Without blanks, a text is the characters of the tokens that are written in it. -/
theorem withoutBlanks_of_spaced (h : Spaced tokens text) (hsep : Separable tokens) :
    Text.withoutBlanks text = tokens.flatMap chars := by
  induction h with
  | nil h => exact Text.withoutBlanks_of_allBlank h
  | cons hblanks h ih =>
      have hchars := Text.withoutBlanks_of_forall fun c hc => hsep.not_isBlank (c := c) hc
      rw [Text.withoutBlanks_append, Text.withoutBlanks_append,
        Text.withoutBlanks_of_allBlank hblanks, hchars, ih hsep.tail, List.nil_append,
        List.flatMap_cons]

end Token

/-! ## The tokens of a type expression -/

open Token (Separable Spaced scan)

mutual

/-- The tokens of a type expression can be told apart, from one another and from what follows unless
this begins with a name. -/
theorem separable_tokens : ∀ (t : TypeExpr) {more : List Token}, t.isNamed = true →
    Separable more → (∀ next, more.head? ≠ some (.name next)) → Separable (t.tokens ++ more)
  | ⟨name, isArray, args⟩, more, hnamed, hmore, hhead => by
      obtain ⟨hname, hargs⟩ := isNamed_mk_iff.1 hnamed
      have hlast : Separable ((if isArray then [Token.brackets] else []) ++ more)
          ∧ ∀ next, ((if isArray then [Token.brackets] else []) ++ more).head?
            ≠ some (.name next) := by
        cases isArray with
        | true => exact ⟨hmore, nofun⟩
        | false => exact ⟨hmore, hhead⟩
      rw [tokens, List.cons_append, List.append_assoc]
      cases args with
      | nil => exact ⟨hname, hlast.2, hlast.1⟩
      | cons arg rest =>
          have hall := separable_tokensOfArgs (arg :: rest) hargs hlast.1
          exact ⟨hname, nofun, cuts_open, hall⟩

/-- The tokens of type arguments can be told apart, and from whatever follows. -/
theorem separable_tokensOfArgs : ∀ (args : List TypeExpr) {more : List Token},
    (∀ arg ∈ args, arg.isNamed = true) → Separable more → Separable (tokensOfArgs args ++ more)
  | [], more, _, hmore => ⟨cuts_close, hmore⟩
  | [arg], more, hargs, hmore => by
      rw [tokensOfArgs, List.append_assoc]
      exact separable_tokens arg (hargs arg (by simp)) ⟨cuts_close, hmore⟩ nofun
  | arg :: next :: rest, more, hargs, hmore => by
      have hrest := separable_tokensOfArgs (next :: rest)
        (fun other hother => hargs other (List.mem_cons_of_mem arg hother)) hmore
      rw [tokensOfArgs_cons arg (List.cons_ne_nil next rest), List.append_assoc, List.cons_append]
      exact separable_tokens arg (hargs arg (by simp)) ⟨cuts_comma, hrest⟩ nofun

end

theorem printedArgs_cons (arg : TypeExpr) {rest : List TypeExpr} (h : rest ≠ []) :
    printedArgs (arg :: rest) = arg.printed ++ ',' :: printedArgs rest := by
  obtain ⟨next, more, rfl⟩ := List.exists_cons_of_ne_nil h
  rw [printedArgs]
  nofun

mutual

/-- A type expression is printed token by token. -/
theorem flatMap_chars_tokens : ∀ t : TypeExpr, t.tokens.flatMap Token.chars = t.printed
  | ⟨name, isArray, args⟩ => by
      rw [tokens, printed, List.flatMap_cons, List.flatMap_append, Token.chars, List.append_assoc]
      cases args with
      | nil => cases isArray <;> simp [Token.chars]
      | cons arg rest =>
          have hall := flatMap_chars_tokensOfArgs (arg :: rest)
          cases isArray <;> simp [Token.chars, hall]

/-- So are type arguments. -/
theorem flatMap_chars_tokensOfArgs : ∀ args : List TypeExpr,
    (tokensOfArgs args).flatMap Token.chars = printedArgs args
  | [] => rfl
  | [arg] => by simp [tokensOfArgs, printedArgs, Token.chars, flatMap_chars_tokens arg]
  | arg :: next :: rest => by
      have hrest := flatMap_chars_tokensOfArgs (next :: rest)
      rw [tokensOfArgs_cons arg (List.cons_ne_nil next rest), List.flatMap_append,
        List.flatMap_cons, flatMap_chars_tokens arg, hrest,
        printedArgs_cons arg (List.cons_ne_nil next rest)]
      rfl

end

variable {text : List Char} {t : TypeExpr}

/-- A text is read as a type expression exactly if the tokens of the type expression are written in
it and the names are names. -/
theorem parse_eq_ok_iff_spaced :
    parse text = .ok t ↔ t.isNamed = true ∧ Spaced t.tokens text := by
  rw [parse_eq_ok_iff]
  constructor
  · rintro ⟨hscan, hnamed⟩
    exact ⟨hnamed, hscan ▸ Token.spaced_scan text⟩
  · rintro ⟨hnamed, hspaced⟩
    have hsep : Token.Separable (t.tokens ++ []) := separable_tokens t hnamed trivial nofun
    rw [List.append_nil] at hsep
    exact ⟨Token.scan_of_spaced hspaced hsep, hnamed⟩

/-- Without blanks, a text that is read as a type expression is the type expression as it is
printed. -/
theorem printed_of_parse (h : parse text = .ok t) : t.printed = Text.withoutBlanks text := by
  obtain ⟨hnamed, hspaced⟩ := parse_eq_ok_iff_spaced.1 h
  have hsep : Token.Separable (t.tokens ++ []) := separable_tokens t hnamed trivial nofun
  rw [List.append_nil] at hsep
  rw [Token.withoutBlanks_of_spaced hspaced hsep, flatMap_chars_tokens]

end TypeExpr

namespace Rule

theorem readTarget_eq_ok_iff {text : String} {t : TypeExpr} :
    readTarget text = .ok t ↔ TypeExpr.parse text.toList = .ok t := by
  unfold readTarget
  split
  · rename_i found hfound
    simp [hfound]
  all_goals
    rename_i hfault
    simp [hfault]

/-- **Reading a target loses nothing but blanks.** What is read from a text is printed as the text
without its blanks; and a type expression is read from exactly the texts in which its tokens are
written, with blanks around them as one likes, if its names are names. -/
theorem readTarget_spaced (text : String) :
    (∀ t, readTarget text = .ok t → t.printed = Text.withoutBlanks text.toList)
      ∧ ∀ t, readTarget text = .ok t
        ↔ t.isNamed = true ∧ TypeExpr.Token.Spaced t.tokens text.toList := by
  constructor
  · intro t h
    exact TypeExpr.printed_of_parse (readTarget_eq_ok_iff.1 h)
  · intro t
    rw [readTarget_eq_ok_iff, TypeExpr.parse_eq_ok_iff_spaced]

/-- An array of maps with an array among its type arguments, and blanks in its text. -/
theorem readTarget_spaced_maps :
    let text := " java.util.Map<java.lang.String ,\tio.Box < byte [] > []>[] "
    let box : TypeExpr := ⟨"io.Box", true, [⟨"byte", true, []⟩]⟩
    let t : TypeExpr := ⟨"java.util.Map", true, [.ofName "java.lang.String", box]⟩
    readTarget text = .ok t
      ∧ t.printed = "java.util.Map<java.lang.String,io.Box<byte[]>[]>[]".toList
      ∧ t.printed = Text.withoutBlanks text.toList
      ∧ TypeExpr.Token.Spaced t.tokens text.toList := by
  intro text box t
  have hread : readTarget text = .ok t := readTarget_eq_ok_iff.2 (by decide +kernel)
  refine ⟨hread, by decide +kernel, (readTarget_spaced text).1 t hread, ?_⟩
  exact (((readTarget_spaced text).2 t).1 hread).2

end Rule

end ApiTypes
