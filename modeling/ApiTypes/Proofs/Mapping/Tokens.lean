import ApiTypes.Mapping.TypeExpr
import ApiTypes.Proofs.Document.Loops
import Mathlib.Data.List.DropRight
import Mathlib.Tactic.Tauto

/-!
# The tokens of type expressions

A text is read as a type expression token by token: names, marks, and the square brackets of an
array, with blanks between them as one likes. What the reader accepts is told by the tokens alone.
It takes a text for a type expression exactly if the tokens of the text are those of the
expression, and the names begin and go on as names do (`TypeExpr.parse_eq_ok_iff`).
-/

set_option autoImplicit false

namespace ApiTypes

namespace TypeExpr

/-- A token of a type expression. -/
inductive Token where
  /-- A name, as far as it goes. -/
  | name (text : List Char)
  /-- The square brackets of an array. -/
  | brackets
  /-- Any other character. -/
  | mark (c : Char)
  deriving DecidableEq

theorem isNamePart_of_isNameStart {c : Char} (h : isNameStart c = true) : isNamePart c = true := by
  simp only [isNameStart, isNamePart, Char.isAlphanum, Bool.or_eq_true] at h ⊢
  tauto

/-- A name begins and goes on as names do. -/
def isName : List Char → Bool
  | [] => false
  | c :: rest => isNameStart c && rest.all isNamePart

theorem isNamePart_of_isName {c : Char} : ∀ {name : List Char}, isName name = true → c ∈ name →
    isNamePart c = true
  | first :: rest, hname, hc => by
      obtain ⟨hfirst, hrest⟩ := Bool.and_eq_true_iff.1 hname
      rcases List.mem_cons.1 hc with rfl | hc
      · exact isNamePart_of_isNameStart hfirst
      · exact List.all_eq_true.1 hrest c hc

/-! ## Tokens of a text -/

namespace Token

/-- The first token of a text after blanks, and the rest. -/
def next? (text : List Char) : Option (Token × List Char) :=
  match Text.trimStart text with
  | [] => none
  | '[' :: ']' :: rest => some (brackets, rest)
  | c :: rest =>
      if isNamePart c then
        some (name (c :: rest.takeWhile isNamePart), rest.dropWhile isNamePart)
      else some (mark c, rest)

variable {text rest : List Char} {token : Token} {c : Char}

theorem length_lt_of_next? (h : next? text = some (token, rest)) : rest.length < text.length := by
  have htrim := Text.length_trimStart_le text
  unfold next? at h
  split at h
  · cases h
  · rename_i heq
    cases h
    rw [heq, List.length_cons, List.length_cons] at htrim
    omega
  · rename_i c more _ heq
    rw [heq, List.length_cons] at htrim
    split at h
    · cases h
      have := (List.dropWhile_sublist isNamePart (l := more)).length_le
      omega
    · cases h
      omega

/-- The tokens of a text. -/
def scan (text : List Char) : List Token :=
  match h : next? text with
  | none => []
  | some (token, rest) =>
      have := length_lt_of_next? h
      token :: scan rest
termination_by text.length

theorem scan_of_none (h : next? text = none) : scan text = [] := by
  rw [scan]
  split
  · rfl
  · rename_i heq
    rw [h] at heq
    cases heq

@[simp] theorem scan_nil : scan [] = [] := scan_of_none rfl

theorem scan_of_some (h : next? text = some (token, rest)) : scan text = token :: scan rest := by
  rw [scan]
  split
  · rename_i heq
    rw [h] at heq
    cases heq
  · rename_i heq
    rw [h] at heq
    cases heq
    rfl

theorem scan_eq_nil_iff : scan text = [] ↔ next? text = none := by
  refine ⟨fun h => ?_, scan_of_none⟩
  cases hnext : next? text with
  | none => rfl
  | some found =>
      rw [scan_of_some hnext] at h
      cases h

theorem scan_eq_cons_iff {tokens : List Token} : scan text = token :: tokens ↔
    ∃ rest, next? text = some (token, rest) ∧ scan rest = tokens := by
  constructor
  · intro h
    cases hnext : next? text with
    | none =>
        rw [scan_of_none hnext] at h
        cases h
    | some found =>
        obtain ⟨first, rest⟩ := found
        rw [scan_of_some hnext] at h
        cases h
        exact ⟨rest, rfl, rfl⟩
  · rintro ⟨rest, hnext, rfl⟩
    exact scan_of_some hnext

theorem next?_eq_none_iff : next? text = none ↔ Text.trimStart text = [] := by
  unfold next?
  split
  · rename_i heq
    simp [heq]
  · rename_i heq
    simp [heq]
  · rename_i heq
    rw [heq]
    split
    · simp
    · simp

theorem next?_eq_brackets_iff :
    next? text = some (brackets, rest) ↔ Text.trimStart text = '[' :: ']' :: rest := by
  unfold next?
  split
  · rename_i heq
    simp [heq]
  · rename_i heq
    simp [heq]
  · rename_i c more hbrackets heq
    rw [heq]
    constructor
    · intro h
      split at h
      · cases h
      · cases h
    · intro h
      cases h
      exact absurd rfl (hbrackets rest rfl)

/-- A mark is a character that goes on no name, and no bracket of a pair. -/
theorem next?_eq_mark_iff : next? text = some (mark c, rest) ↔
    Text.trimStart text = c :: rest ∧ isNamePart c = false
      ∧ ¬ (c = '[' ∧ rest.head? = some ']') := by
  unfold next?
  split
  · rename_i heq
    simp [heq]
  · rename_i heq
    rw [heq]
    constructor
    · intro h
      cases h
    · rintro ⟨h, -, hpair⟩
      cases h
      exact absurd ⟨rfl, rfl⟩ hpair
  · rename_i d more hbrackets heq
    rw [heq]
    constructor
    · intro h
      split at h
      · cases h
      · rename_i hname
        cases h
        refine ⟨rfl, by simpa using hname, ?_⟩
        rintro ⟨rfl, hclose⟩
        obtain ⟨after, rfl⟩ := List.head?_eq_some_iff.1 hclose
        exact hbrackets after rfl rfl
    · rintro ⟨h, hname, -⟩
      cases h
      rw [hname]
      rfl

theorem next?_eq_name_iff {found : List Char} : next? text = some (name found, rest) ↔
    ∃ c more, Text.trimStart text = c :: more ∧ isNamePart c = true ∧
      found = c :: more.takeWhile isNamePart ∧ rest = more.dropWhile isNamePart := by
  unfold next?
  split
  · rename_i heq
    simp [heq]
  · rename_i heq
    rw [heq]
    constructor
    · intro h
      cases h
    · rintro ⟨c, more, h, hname, _⟩
      cases h
      exact absurd hname (by decide)
  · rename_i c more _ heq
    rw [heq]
    constructor
    · intro h
      split at h
      · rename_i hname
        cases h
        exact ⟨c, more, rfl, hname, rfl, rfl⟩
      · cases h
    · rintro ⟨c', more', h, hname, rfl, rfl⟩
      cases h
      rw [if_pos hname]

/-- Blanks before a text are no tokens. -/
theorem scan_trimStart (text : List Char) : scan (Text.trimStart text) = scan text := by
  have htwice : Text.trimStart (Text.trimStart text) = Text.trimStart text :=
    List.dropWhile_idempotent Text.isBlank text
  have hnext : next? (Text.trimStart text) = next? text := by
    rw [next?, next?, htwice]
  cases h : next? text with
  | none => rw [scan_of_none h, scan_of_none (hnext.trans h)]
  | some found => rw [scan_of_some h, scan_of_some (hnext.trans h)]

/-- A text has no more tokens than characters. -/
theorem length_scan_le (text : List Char) : (scan text).length ≤ text.length := by
  cases h : next? text with
  | none =>
      rw [scan_of_none h]
      exact Nat.zero_le _
  | some found =>
      obtain ⟨token, rest⟩ := found
      have hlt := length_lt_of_next? h
      have hrest := length_scan_le rest
      rw [scan_of_some h, List.length_cons]
      omega
termination_by text.length

/-! ### A mark that cuts a text -/

/-- A mark that is on its own whatever stands around it. -/
structure Cuts (c : Char) : Prop where
  /-- It goes on no name. -/
  isNamePart : isNamePart c = false
  /-- It is no blank. -/
  isBlank : Text.isBlank c = false
  /-- It opens no brackets. -/
  ne_open : c ≠ '['
  /-- It closes none. -/
  ne_close : c ≠ ']'

theorem trimStart_append_cons (hblank : Text.isBlank c = false) (text rest : List Char) :
    Text.trimStart (text ++ c :: rest) = Text.trimStart text ++ c :: rest := by
  induction text with
  | nil => simp [Text.trimStart_cons, hblank]
  | cons d more ih =>
      rw [List.cons_append, Text.trimStart_cons, Text.trimStart_cons, ih]
      split
      · rfl
      · rfl

theorem next?_append_of_none (hc : Cuts c) (h : next? text = none) (more : List Char) :
    next? (text ++ c :: more) = some (mark c, more) := by
  refine next?_eq_mark_iff.2 ⟨?_, hc.isNamePart, fun hpair => hc.ne_open hpair.1⟩
  rw [trimStart_append_cons hc.isBlank, next?_eq_none_iff.1 h, List.nil_append]

theorem takeWhile_append_cons {p : Char → Bool} (hc : p c = false) (name more : List Char) :
    (name ++ c :: more).takeWhile p = name.takeWhile p
      ∧ (name ++ c :: more).dropWhile p = name.dropWhile p ++ c :: more := by
  induction name with
  | nil => simp [hc]
  | cons d name ih =>
      cases hd : p d with
      | true => simp [hd, ih]
      | false => simp [hd]

/-- The first token before a mark that cuts is the first token of what stands before it. -/
theorem next?_append_of_some (hc : Cuts c) (h : next? text = some (token, rest))
    (more : List Char) : next? (text ++ c :: more) = some (token, rest ++ c :: more) := by
  have htrim := trimStart_append_cons hc.isBlank text more
  cases token with
  | brackets =>
      rw [next?_eq_brackets_iff] at h ⊢
      rw [htrim, h]
      rfl
  | name found =>
      rw [next?_eq_name_iff] at h ⊢
      obtain ⟨d, name, hstart, hd, rfl, rfl⟩ := h
      obtain ⟨htake, hdrop⟩ := takeWhile_append_cons hc.isNamePart name more
      exact ⟨d, name ++ c :: more, by rw [htrim, hstart]; rfl, hd, by rw [htake], hdrop.symm⟩
  | mark d =>
      rw [next?_eq_mark_iff] at h ⊢
      obtain ⟨hstart, hd, hpair⟩ := h
      refine ⟨by rw [htrim, hstart]; rfl, hd, ?_⟩
      rintro ⟨rfl, hclose⟩
      cases rest with
      | nil =>
          -- What follows the bracket is the mark, and this one closes no brackets.
          cases hclose
          exact hc.ne_close rfl
      | cons e rest => exact hpair ⟨rfl, hclose⟩

/-- A mark that cuts a text cuts its tokens as well. -/
theorem scan_append_cons (hc : Cuts c) (text more : List Char) :
    scan (text ++ c :: more) = scan text ++ mark c :: scan more := by
  cases h : next? text with
  | none =>
      rw [scan_of_some (next?_append_of_none hc h more), scan_of_none h, List.nil_append]
  | some found =>
      obtain ⟨token, rest⟩ := found
      have hlt := length_lt_of_next? h
      rw [scan_of_some (next?_append_of_some hc h more), scan_of_some h,
        scan_append_cons hc rest more, List.cons_append]
termination_by text.length

end Token

/-! ## Tokens of a type expression -/

mutual

/-- The tokens of a type expression. -/
def tokens : TypeExpr → List Token
  | ⟨name, isArray, args⟩ =>
      .name name.toList :: ((if args.isEmpty then [] else .mark '<' :: tokensOfArgs args)
        ++ (if isArray then [.brackets] else []))

/-- The tokens of type arguments up to the closing angle bracket. -/
def tokensOfArgs : List TypeExpr → List Token
  | [] => [.mark '>']
  | [arg] => tokens arg ++ [.mark '>']
  | arg :: rest => tokens arg ++ .mark ',' :: tokensOfArgs rest

end

theorem tokensOfArgs_cons (arg : TypeExpr) {rest : List TypeExpr} (h : rest ≠ []) :
    tokensOfArgs (arg :: rest) = arg.tokens ++ .mark ',' :: tokensOfArgs rest := by
  obtain ⟨next, more, rfl⟩ := List.exists_cons_of_ne_nil h
  rw [tokensOfArgs]
  nofun

mutual

/-- Whether the names of a type expression begin and go on as names do. -/
def isNamed : TypeExpr → Bool
  | ⟨name, _, args⟩ => isName name.toList && areNamed args

/-- Whether the names of type arguments do. -/
def areNamed : List TypeExpr → Bool
  | [] => true
  | arg :: rest => isNamed arg && areNamed rest

end

theorem areNamed_eq_true_iff {args : List TypeExpr} :
    areNamed args = true ↔ ∀ arg ∈ args, arg.isNamed = true := by
  induction args with
  | nil => simp [areNamed]
  | cons arg rest ih => simp [areNamed, ih]

theorem isNamed_mk_iff {name : String} {isArray : Bool} {args : List TypeExpr} :
    isNamed ⟨name, isArray, args⟩ = true
      ↔ isName name.toList = true ∧ ∀ arg ∈ args, arg.isNamed = true := by
  rw [isNamed, Bool.and_eq_true, areNamed_eq_true_iff]

open Token (next? scan)

/-! ## Reading one token -/

variable {text rest : List Char}

/-- A name is read where one comes next. -/
theorem parseName_eq_ok_iff {name : List Char} : parseName text = .ok (name, rest) ↔
    next? text = some (.name name, rest) ∧ isName name = true := by
  rw [Token.next?_eq_name_iff]
  unfold parseName
  split
  · rename_i c more heq
    constructor
    · intro h
      split at h
      · rename_i hstart
        cases h
        exact ⟨⟨c, more, heq, isNamePart_of_isNameStart hstart, rfl, rfl⟩, by simp [isName, hstart]⟩
      · cases h
    · rintro ⟨⟨d, more', heq', -, rfl, rfl⟩, hname⟩
      cases heq.symm.trans heq'
      rw [if_pos (by simpa [isName] using (Bool.and_eq_true_iff.1 hname).1)]
  · rename_i heq
    constructor
    · intro h
      cases h
    · rintro ⟨⟨d, more, heq', -⟩, -⟩
      cases heq.symm.trans heq'

theorem parseBrackets_of_next? (h : next? text = some (.brackets, rest)) :
    parseBrackets text = (true, rest) := by
  simp only [parseBrackets, Token.next?_eq_brackets_iff.1 h]

theorem parseBrackets_of_head?_ne (h : (scan text).head? ≠ some .brackets) :
    parseBrackets text = (false, Text.trimStart text) := by
  unfold parseBrackets
  split
  · rename_i heq
    rw [Token.scan_of_some (Token.next?_eq_brackets_iff.2 heq)] at h
    exact absurd rfl h
  · rfl

/-- The brackets that were read come before the other tokens. -/
theorem scan_of_parseBrackets {isArray : Bool} (h : parseBrackets text = (isArray, rest)) :
    scan text = (if isArray then [.brackets] else []) ++ scan rest := by
  unfold parseBrackets at h
  split at h
  · rename_i heq
    cases h
    rw [Token.scan_of_some (Token.next?_eq_brackets_iff.2 heq)]
    rfl
  · cases h
    simp [Token.scan_trimStart]

/-- The marks of type arguments are tokens of their own. -/
theorem scan_of_trimStart_eq {c : Char} (h : Text.trimStart text = c :: rest)
    (hc : Token.Cuts c) : scan text = .mark c :: scan rest :=
  Token.scan_of_some
    (Token.next?_eq_mark_iff.2 ⟨h, hc.isNamePart, fun hpair => hc.ne_open hpair.1⟩)

theorem trimStart_of_scan {c : Char} {more : List Token} (h : scan text = .mark c :: more) :
    ∃ rest, Text.trimStart text = c :: rest ∧ scan rest = more := by
  obtain ⟨rest, hnext, hrest⟩ := Token.scan_eq_cons_iff.1 h
  exact ⟨rest, (Token.next?_eq_mark_iff.1 hnext).1, hrest⟩

theorem cuts_open : Token.Cuts '<' := ⟨rfl, rfl, by decide, by decide⟩

theorem cuts_comma : Token.Cuts ',' := ⟨rfl, rfl, by decide, by decide⟩

theorem cuts_close : Token.Cuts '>' := ⟨rfl, rfl, by decide, by decide⟩

/-! ## Reading a type expression -/

/-- The type expression that is read is told by the tokens before the rest. -/
def ReadsPart (budget : ℕ) : Prop :=
  ∀ ⦃text t rest⦄, parsePart budget text = .ok (t, rest) →
    scan text = t.tokens ++ scan rest ∧ t.isNamed = true

/-- The type arguments that are read are told by the tokens before the rest. -/
def ReadsArgs (budget : ℕ) : Prop :=
  ∀ ⦃text args rest⦄, parseArgs budget text = .ok (args, rest) →
    args ≠ [] ∧ scan text = tokensOfArgs args ++ scan rest ∧ ∀ arg ∈ args, arg.isNamed = true

theorem readsPart_succ {budget : ℕ} (hreads : ReadsArgs budget) : ReadsPart (budget + 1) := by
  intro text t rest h
  rw [parsePart] at h
  cases hname : parseName text with
  | error fault =>
      rw [hname] at h
      cases h
  | ok found =>
      obtain ⟨name, afterName⟩ := found
      obtain ⟨hnext, hnamed⟩ := parseName_eq_ok_iff.1 hname
      rw [← String.toList_ofList (l := name)] at hnamed
      rw [hname] at h
      simp only at h
      split at h
      · rename_i afterOpen hopen
        cases hargs : parseArgs budget afterOpen with
        | error fault =>
            rw [hargs] at h
            cases h
        | ok found =>
            obtain ⟨args, afterArgs⟩ := found
            obtain ⟨hne, hscan, hall⟩ := hreads hargs
            rw [hargs] at h
            cases h
            have hlast := scan_of_parseBrackets (Prod.eta (parseBrackets afterArgs)).symm
            refine ⟨?_, isNamed_mk_iff.2 ⟨hnamed, hall⟩⟩
            rw [Token.scan_of_some hnext, scan_of_trimStart_eq hopen cuts_open, hscan, hlast]
            simp [tokens, hne]
      · cases h
        have hlast := scan_of_parseBrackets
          (Prod.eta (parseBrackets (Text.trimStart afterName))).symm
        refine ⟨?_, isNamed_mk_iff.2 ⟨hnamed, by simp⟩⟩
        rw [Token.scan_of_some hnext, ← Token.scan_trimStart afterName, hlast]
        simp [tokens]

theorem readsArgs_succ {budget : ℕ} (hpart : ReadsPart budget) (hreads : ReadsArgs budget) :
    ReadsArgs (budget + 1) := by
  intro text args rest h
  rw [parseArgs] at h
  cases harg : parsePart budget text with
  | error fault =>
      rw [harg] at h
      cases h
  | ok found =>
      obtain ⟨arg, afterArg⟩ := found
      obtain ⟨hscan, hnamed⟩ := hpart harg
      rw [harg] at h
      simp only at h
      split at h
      · rename_i afterComma hcomma
        cases hargs : parseArgs budget afterComma with
        | error fault =>
            rw [hargs] at h
            cases h
        | ok found =>
            obtain ⟨more, last⟩ := found
            obtain ⟨hne, hmore, hall⟩ := hreads hargs
            rw [hargs] at h
            cases h
            refine ⟨by simp, ?_, by simpa using ⟨hnamed, hall⟩⟩
            rw [hscan, scan_of_trimStart_eq hcomma cuts_comma, hmore, tokensOfArgs_cons arg hne]
            simp
      · rename_i afterClose hclose
        cases h
        refine ⟨by simp, ?_, by simpa using hnamed⟩
        rw [hscan, scan_of_trimStart_eq hclose cuts_close, tokensOfArgs]
        simp
      · cases h

/-- By induction on the budget, for type expressions and type arguments at once. -/
theorem reads (budget : ℕ) : ReadsPart budget ∧ ReadsArgs budget := by
  induction budget with
  | zero =>
      constructor
      · intro text t rest h
        rw [parsePart] at h
        cases h
      · intro text args rest h
        rw [parseArgs] at h
        cases h
  | succ budget ih => exact ⟨readsPart_succ ih.2, readsArgs_succ ih.1 ih.2⟩

/-- A type expression whose tokens come first is read, if the tokens after it do not go on it. -/
def ReadPart (budget : ℕ) : Prop :=
  ∀ ⦃text t more⦄, t.isNamed = true → scan text = t.tokens ++ more → t.tokens.length ≤ budget →
    more.head? ≠ some .brackets → more.head? ≠ some (.mark '<') →
    ∃ rest, parsePart budget text = .ok (t, rest) ∧ scan rest = more

/-- Type arguments whose tokens come first are read. -/
def ReadArgs (budget : ℕ) : Prop :=
  ∀ ⦃text args more⦄, args ≠ [] → (∀ arg ∈ args, arg.isNamed = true) →
    scan text = tokensOfArgs args ++ more → (tokensOfArgs args).length ≤ budget →
    ∃ rest, parseArgs budget text = .ok (args, rest) ∧ scan rest = more

/-- Brackets are read if and only if they come next. -/
theorem exists_parseBrackets {isArray : Bool} {more : List Token}
    (h : scan text = (if isArray then [.brackets] else []) ++ more)
    (hmore : more.head? ≠ some .brackets) :
    ∃ rest, parseBrackets text = (isArray, rest) ∧ scan rest = more := by
  cases isArray with
  | true =>
      obtain ⟨rest, hnext, hrest⟩ := Token.scan_eq_cons_iff.1 h
      exact ⟨rest, parseBrackets_of_next? hnext, hrest⟩
  | false =>
      rw [if_neg (by simp), List.nil_append] at h
      refine ⟨_, parseBrackets_of_head?_ne (by rwa [h]), ?_⟩
      rw [Token.scan_trimStart, h]

theorem readPart_succ {budget : ℕ} (hread : ReadArgs budget) : ReadPart (budget + 1) := by
  rintro text ⟨name, isArray, args⟩ more hnamed hscan hbudget hbrackets hopen
  obtain ⟨hname, hargs⟩ := isNamed_mk_iff.1 hnamed
  rw [tokens, List.cons_append] at hscan
  obtain ⟨afterName, hnext, hscan⟩ := Token.scan_eq_cons_iff.1 hscan
  have hfirst : parseName text = .ok (name.toList, afterName) :=
    parseName_eq_ok_iff.2 ⟨hnext, hname⟩
  simp only [parsePart, hfirst]
  by_cases hne : args = []
  · subst hne
    rw [List.isEmpty_nil, if_pos rfl, List.nil_append] at hscan
    split
    · rename_i afterOpen heq
      -- An angle bracket would be the next token, but none comes next.
      rw [scan_of_trimStart_eq heq cuts_open] at hscan
      cases isArray with
      | true => cases hscan
      | false =>
          rw [if_neg (by simp), List.nil_append] at hscan
          exact absurd (congrArg List.head? hscan.symm) hopen
    · rw [← Token.scan_trimStart] at hscan
      obtain ⟨rest, hlast, hrest⟩ := exists_parseBrackets hscan hbrackets
      exact ⟨rest, by simp [hlast], hrest⟩
  · rw [if_neg (by simpa using hne), List.append_assoc, List.cons_append] at hscan
    obtain ⟨afterOpen, heq, hscan⟩ := trimStart_of_scan hscan
    obtain ⟨afterArgs, hparse, hscan⟩ := hread hne hargs hscan
      (by simp [tokens, hne] at hbudget; omega)
    obtain ⟨rest, hlast, hrest⟩ := exists_parseBrackets hscan hbrackets
    exact ⟨rest, by simp [heq, hparse, hlast], hrest⟩

theorem readArgs_succ {budget : ℕ} (hpart : ReadPart budget) (hread : ReadArgs budget) :
    ReadArgs (budget + 1) := by
  intro text args more hne hargs hscan hbudget
  obtain ⟨arg, rest, rfl⟩ := List.exists_cons_of_ne_nil hne
  by_cases hlast : rest = []
  · subst hlast
    rw [tokensOfArgs, List.append_assoc] at hscan
    rw [tokensOfArgs, List.length_append, List.length_singleton] at hbudget
    obtain ⟨afterArg, hparse, hscan⟩ := hpart (hargs arg (by simp)) hscan (by omega) (by simp)
      (by simp)
    obtain ⟨last, heq, hlast⟩ := trimStart_of_scan hscan
    exact ⟨last, by simp [parseArgs, hparse, heq], hlast⟩
  · rw [tokensOfArgs_cons arg hlast, List.append_assoc, List.cons_append] at hscan
    rw [tokensOfArgs_cons arg hlast, List.length_append, List.length_cons] at hbudget
    obtain ⟨afterArg, hparse, hscan⟩ := hpart (hargs arg (by simp)) hscan (by omega) (by simp)
      (by simp)
    obtain ⟨afterComma, heq, hscan⟩ := trimStart_of_scan hscan
    obtain ⟨last, hparseRest, hlast⟩ := hread hlast (fun arg harg => hargs arg (by simp [harg]))
      hscan (by omega)
    exact ⟨last, by simp [parseArgs, hparse, heq, hparseRest], hlast⟩

theorem read (budget : ℕ) : ReadPart budget ∧ ReadArgs budget := by
  induction budget with
  | zero =>
      constructor
      · rintro text ⟨name, isArray, args⟩ more - - hbudget
        simp [tokens] at hbudget
      · intro text args more hne _ _ hbudget
        obtain ⟨arg, rest, rfl⟩ := List.exists_cons_of_ne_nil hne
        obtain ⟨name, isArray, _⟩ := arg
        cases rest <;> simp [tokensOfArgs] at hbudget
  | succ budget ih => exact ⟨readPart_succ ih.2, readArgs_succ ih.1 ih.2⟩

/-- A text is read as a type expression exactly if its tokens are those of the type expression and
the names are names. -/
theorem parse_eq_ok_iff {t : TypeExpr} :
    parse text = .ok t ↔ scan text = t.tokens ∧ t.isNamed = true := by
  constructor
  · intro h
    unfold parse at h
    split at h
    · cases h
    · rename_i found rest hparse
      obtain ⟨hscan, hnamed⟩ := (reads _).1 hparse
      split at h
      · rename_i hrest
        cases h
        rw [Token.scan_of_none (Token.next?_eq_none_iff.2 hrest), List.append_nil] at hscan
        exact ⟨hscan, hnamed⟩
      · cases h
  · rintro ⟨hscan, hnamed⟩
    -- Every token takes a character, so the budget is enough for all of them.
    have hlength := Token.length_scan_le text
    have hall : scan text = t.tokens ++ [] := by rw [hscan, List.append_nil]
    obtain ⟨rest, hparse, hrest⟩ := (read (2 * text.length + 2)).1 hnamed hall
      (by rw [← hscan]; omega) (by simp) (by simp)
    have hend := Token.next?_eq_none_iff.1 (Token.scan_eq_nil_iff.1 hrest)
    simp [parse, hparse, hend]

/-- The tokens tell whether a text is read as a type expression, without reading it. -/
instance decidableParse (text : List Char) (t : TypeExpr) : Decidable (parse text = .ok t) :=
  decidable_of_iff _ parse_eq_ok_iff.symm

/-! ## What the tokens tell -/

/-- The marks of type expressions. -/
def isArgsMark (c : Char) : Bool :=
  c == '<' || c == ',' || c == '>'

mutual

theorem isArgsMark_of_mem_tokens {c : Char} : ∀ t : TypeExpr, .mark c ∈ t.tokens →
    isArgsMark c = true
  | ⟨name, isArray, args⟩, h => by
      rw [tokens, List.mem_cons, List.mem_append] at h
      rcases h with h | h | h
      · cases h
      · split at h
        · cases h
        · rcases List.mem_cons.1 h with h | h
          · cases h
            rfl
          · exact isArgsMark_of_mem_tokensOfArgs args h
      · cases isArray <;> simp at h

theorem isArgsMark_of_mem_tokensOfArgs {c : Char} : ∀ args : List TypeExpr,
    .mark c ∈ tokensOfArgs args → isArgsMark c = true
  | [], h => by
      cases List.mem_singleton.1 h
      rfl
  | [arg], h => by
      rcases List.mem_append.1 h with h | h
      · exact isArgsMark_of_mem_tokens arg h
      · cases List.mem_singleton.1 h
        rfl
  | arg :: next :: rest, h => by
      rw [tokensOfArgs_cons arg (List.cons_ne_nil next rest), List.mem_append, List.mem_cons] at h
      rcases h with h | h | h
      · exact isArgsMark_of_mem_tokens arg h
      · cases h
        rfl
      · exact isArgsMark_of_mem_tokensOfArgs (next :: rest) h

end

/-- No other mark stands in the text of a type expression. -/
theorem not_mem_of_parse {c : Char} (hc : Token.Cuts c) (hmark : isArgsMark c = false)
    {t : TypeExpr} (h : parse text = .ok t) : c ∉ text := by
  intro hmem
  obtain ⟨before, after, rfl⟩ := List.append_of_mem hmem
  have hscan := (parse_eq_ok_iff.1 h).1
  rw [Token.scan_append_cons hc] at hscan
  have hmem : .mark c ∈ t.tokens := by
    rw [← hscan]
    simp
  exact absurd (isArgsMark_of_mem_tokens t hmem) (by simp [hmark])

theorem scan_cons_of_isBlank {c : Char} (h : Text.isBlank c = true) (text : List Char) :
    scan (c :: text) = scan text := by
  rw [← Token.scan_trimStart, Text.trimStart_cons, if_pos h, Token.scan_trimStart]

/-- Blanks before a text make no difference. -/
theorem parse_cons_of_isBlank {c : Char} (h : Text.isBlank c = true) {t : TypeExpr} :
    parse (c :: text) = .ok t ↔ parse text = .ok t := by
  rw [parse_eq_ok_iff, parse_eq_ok_iff, scan_cons_of_isBlank h]

/-- Texts of type expressions with commas between them, up to a closing angle bracket. -/
theorem scan_intercalate {texts : List String} {args : List TypeExpr}
    (h : List.Forall₂ (fun text arg => parse text.toList = .ok arg) texts args) :
    scan (", ".intercalate texts ++ ">").toList = tokensOfArgs args := by
  induction h with
  | nil =>
      rw [String.intercalate_nil, tokensOfArgs]
      exact (scan_of_trimStart_eq rfl cuts_close).trans (by rw [Token.scan_nil])
  | @cons text arg rest args htext hrest ih =>
      have hscan := (parse_eq_ok_iff.1 htext).1
      cases hrest with
      | nil =>
          rw [String.intercalate_singleton, String.toList_append, tokensOfArgs, ← hscan]
          exact (Token.scan_append_cons cuts_close text.toList []).trans (by rw [Token.scan_nil])
      | cons hnext hmore =>
          rename_i next _ more _
          have hcut : (", ".intercalate (text :: next :: more) ++ ">").toList
              = text.toList ++ ',' :: ' ' :: (", ".intercalate (next :: more) ++ ">").toList := by
            rw [String.intercalate_cons_cons, String.append_assoc, String.append_assoc,
              String.toList_append, String.toList_append]
            rfl
          rw [hcut, Token.scan_append_cons cuts_comma, scan_cons_of_isBlank rfl, ih, hscan,
            tokensOfArgs_cons _ (List.cons_ne_nil _ _)]

/-- A name with texts of type expressions between angle brackets after it. -/
theorem parse_withArgs {target name : String} {texts : List String} {args : List TypeExpr}
    (htarget : parse target.toList = .ok (.ofName name))
    (h : List.Forall₂ (fun text arg => parse text.toList = .ok arg) texts args) (hne : texts ≠ []) :
    parse (target ++ "<" ++ ", ".intercalate texts ++ ">").toList = .ok ⟨name, false, args⟩ := by
  obtain ⟨hscan, hnamed⟩ := parse_eq_ok_iff.1 htarget
  have hargs : args ≠ [] := by
    rintro rfl
    cases h
    exact hne rfl
  refine parse_eq_ok_iff.2 ⟨?_, ?_⟩
  · have hcut : (target ++ "<" ++ ", ".intercalate texts ++ ">").toList
        = target.toList ++ '<' :: (", ".intercalate texts ++ ">").toList := by
      rw [String.append_assoc, String.append_assoc, String.toList_append, String.toList_append]
      rfl
    rw [hcut, Token.scan_append_cons cuts_open, hscan, scan_intercalate h]
    simp [tokens, ofName, hargs]
  · refine isNamed_mk_iff.2 ⟨(isNamed_mk_iff.1 hnamed).1, fun arg harg => ?_⟩
    obtain ⟨text, -, htext⟩ := exists_of_mem_forall₂ h harg
    exact (parse_eq_ok_iff.1 htext).2

end TypeExpr

end ApiTypes
