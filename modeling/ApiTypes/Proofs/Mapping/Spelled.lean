import ApiTypes.Proofs.Mapping.Tokens
import ApiTypes.Resolve.Target

/-!
# How targets are spelled

A target is written with its name without package and with its type arguments, and it needs the
qualified names that occur in it. Both can be told from the tokens of the text that the target was
read from, as far as the square brackets of type arguments allow it. These are part of the name of
a type argument, so they come before its own type arguments (`TypeExpr.spelled_toTarget_iff`), and
they stand in the qualified name as well (`TypeExpr.mem_names_toTarget_iff`).
-/

set_option autoImplicit false

namespace ApiTypes

/-! ## Qualified names -/

section Qualified

variable {before after text : List Char}

theorem splitQualified_of_not_mem (h : '.' ∉ text) : splitQualified text = ([], text) := by
  have hlast : text.reverse.takeWhile (· != '.') = text.reverse := by
    rw [List.takeWhile_eq_self_iff]
    intro c hc
    rw [bne_iff_ne]
    rintro rfl
    exact h (List.mem_reverse.1 hc)
  simp [splitQualified, hlast]

theorem splitQualified_append_cons (h : '.' ∉ after) :
    splitQualified (before ++ '.' :: after) = (before, after) := by
  have hlast : (before ++ '.' :: after).reverse.takeWhile (· != '.') = after.reverse := by
    have hall : ∀ c ∈ after.reverse, (c != '.') = true := by
      intro c hc
      rw [bne_iff_ne]
      rintro rfl
      exact h (List.mem_reverse.1 hc)
    rw [List.reverse_append, List.reverse_cons, List.append_assoc,
      List.takeWhile_append_of_pos hall]
    simp
  have hlength : (before ++ '.' :: after).length - after.length - 1 = before.length := by
    rw [List.length_append, List.length_cons]
    omega
  rw [splitQualified, hlast, List.reverse_reverse, hlength, List.take_left' rfl]

/-- A name has no point, or it has a last one. -/
theorem exists_last_point (text : List Char) :
    '.' ∉ text ∨ ∃ before after, text = before ++ '.' :: after ∧ '.' ∉ after := by
  induction text with
  | nil => exact .inl (by simp)
  | cons c rest ih =>
      rcases ih with h | ⟨before, after, rfl, h⟩
      · by_cases hc : c = '.'
        · exact .inr ⟨[], rest, by rw [hc, List.nil_append], h⟩
        · exact .inl (by simp [h, Ne.symm hc])
      · exact .inr ⟨c :: before, after, rfl, h⟩

/-- What is written after a name without a point in it goes on the part after the last point. -/
theorem splitQualified_append (h : '.' ∉ after) (text : List Char) :
    splitQualified (text ++ after)
      = ((splitQualified text).1, (splitQualified text).2 ++ after) := by
  rcases exists_last_point text with hnone | ⟨package, last, rfl, hlast⟩
  · rw [splitQualified_of_not_mem hnone, splitQualified_of_not_mem (by simp [hnone, h])]
  · rw [splitQualified_append_cons hlast, List.append_assoc, List.cons_append,
      splitQualified_append_cons (by simp [hlast, h])]

theorem simpleName_append_brackets (name : String) :
    simpleName (name ++ "[]") = simpleName name ++ "[]" := by
  apply String.toList_injective
  simp [simpleName, splitQualified_append]

theorem packageOf_append_brackets (name : String) : packageOf (name ++ "[]") = packageOf name := by
  apply String.toList_injective
  simp [packageOf, splitQualified_append]

/-- A name is made of its two parts, if it has a package. -/
theorem packageOf_append_simpleName {name : String} (h : packageOf name ≠ "") :
    packageOf name ++ "." ++ simpleName name = name := by
  apply String.toList_injective
  rcases exists_last_point name.toList with hnone | ⟨package, last, heq, hlast⟩
  · exact absurd (by simp [packageOf, splitQualified_of_not_mem hnone]) h
  · simp [packageOf, simpleName, heq, splitQualified_append_cons hlast]

end Qualified

/-! ## Texts that are the same or part at a bracket -/

/-- Two texts are the same if a condition holds. If it does not, they part where one of them goes on
with a square bracket and the other one with an angle bracket. -/
structure Agree (condition : Prop) (a b : List Char) : Prop where
  /-- They are the same. -/
  eq : condition → a = b
  /-- They part. -/
  parts : ¬ condition →
    ∃ before after after', a = before ++ '[' :: after ∧ b = before ++ '<' :: after'

namespace Agree

variable {condition other : Prop} {a b a' b' : List Char}

theorem refl (a : List Char) : Agree True a a := ⟨fun _ => rfl, fun h => absurd trivial h⟩

theorem congr (h : Agree condition a b) (hiff : condition ↔ other) : Agree other a b := by
  rwa [← propext hiff]

/-- Texts that go on after the same texts agree if both parts do. -/
theorem append (h : Agree condition a b) (h' : Agree other a' b') :
    Agree (condition ∧ other) (a ++ a') (b ++ b') where
  eq both := by rw [h.eq both.1, h'.eq both.2]
  parts hnot := by
    by_cases hc : condition
    · obtain ⟨before, after, after', rfl, rfl⟩ := h'.parts fun ho => hnot ⟨hc, ho⟩
      exact ⟨a ++ before, after, after', (List.append_assoc ..).symm,
        by rw [h.eq hc, List.append_assoc]⟩
    · obtain ⟨before, after, after', rfl, rfl⟩ := h.parts hc
      exact ⟨before, after ++ a', after' ++ b', List.append_assoc .., List.append_assoc ..⟩

/-- They are the same only if the condition holds. -/
theorem eq_iff (h : Agree condition a b) : a = b ↔ condition := by
  refine ⟨fun heq => ?_, h.eq⟩
  by_contra hnot
  obtain ⟨before, after, after', rfl, rfl⟩ := h.parts hnot
  rw [List.append_cancel_left_eq, List.cons.injEq] at heq
  exact absurd heq.1 (by decide)

end Agree

/-! ## The root package in a name -/

namespace Target

/-- Nothing that begins before some characters and goes on into them is a placeholder, if no
placeholder has them. -/
theorem prefix_of_prefix_append {found text after : List Char} (h : ∀ c ∈ after, c ∉ found)
    (hstart : found <+: text ++ after) : found <+: text := by
  rcases List.prefix_or_prefix_of_prefix hstart (List.prefix_append text after) with
    hfound | ⟨more, rfl⟩
  · exact hfound
  · cases more with
    | nil => simp
    | cons c more =>
        obtain ⟨rest, hrest⟩ := (List.prefix_append_right_inj text).1 hstart
        exact absurd (by simp) (h c (by simp [← hrest]))

theorem isPrefixOf_append {after : List Char} (h : ∀ c ∈ after, c ∉ placeholder)
    (text : List Char) :
    placeholder.isPrefixOf (text ++ after) = placeholder.isPrefixOf text := by
  rw [Bool.eq_iff_iff, List.isPrefixOf_iff_prefix, List.isPrefixOf_iff_prefix]
  exact ⟨prefix_of_prefix_append h, fun hstart => hstart.trans (List.prefix_append text after)⟩

/-- The root package is put into a text before characters that no placeholder has. -/
theorem replaceFrom_append (package : List Char) {after : List Char}
    (h : ∀ c ∈ after, c ∉ placeholder) (text : List Char) {skip : Nat}
    (hskip : skip ≤ text.length) :
    replaceFrom package skip (text ++ after) = replaceFrom package skip text ++ after := by
  -- A placeholder that begins in the text ends in it, so no more is skipped than the text has.
  induction text generalizing skip with
  | nil =>
      cases Nat.le_zero.1 hskip
      induction after with
      | nil => rfl
      | cons c rest ih =>
          have hnone : placeholder.isPrefixOf (c :: rest) = false := by
            have hempty := isPrefixOf_append h []
            exact hempty
          have hrest := ih fun d hd => h d (List.mem_cons_of_mem c hd)
          simp only [List.nil_append, replaceFrom] at hrest ⊢
          rw [hnone, if_neg Bool.false_ne_true, hrest]
  | cons c rest ih =>
      rw [List.cons_append]
      cases skip with
      | succ left => exact ih (Nat.le_of_succ_le_succ hskip)
      | zero =>
          have hsame := isPrefixOf_append h (c :: rest)
          rw [List.cons_append] at hsame
          simp only [replaceFrom, hsame]
          split
          · rename_i hstart
            have hlength := (List.isPrefixOf_iff_prefix.1 hstart).length_le
            rw [ih (Nat.sub_le_of_le_add hlength), List.append_assoc]
          · rw [ih (Nat.zero_le _), List.cons_append]

theorem substitute_append_brackets (package name : String) :
    substitute package (name ++ "[]") = substitute package name ++ "[]" := by
  have hopen : '[' ∉ placeholder := by decide +kernel
  have hclose : ']' ∉ placeholder := by decide +kernel
  have hbrackets : ∀ c ∈ "[]".toList, c ∉ placeholder := by
    intro c hc
    rcases List.mem_cons.1 hc with rfl | hc
    · exact hopen
    · rcases List.mem_singleton.1 hc with rfl
      exact hclose
  have happend := replaceFrom_append package.toList hbrackets name.toList (Nat.zero_le _)
  apply String.toList_injective
  simp only [substitute, String.toList_ofList, String.toList_append, happend]

/-- Every character comes from the package or the text. -/
theorem mem_of_mem_replaceFrom {package : List Char} {c : Char} {skip : Nat} {text : List Char}
    (h : c ∈ replaceFrom package skip text) : c ∈ package ∨ c ∈ text := by
  induction text generalizing skip with
  | nil => cases h
  | cons d rest ih =>
      cases skip with
      | succ left => exact (ih h).imp_right (List.mem_cons_of_mem d)
      | zero =>
          rw [replaceFrom] at h
          split at h
          · rcases List.mem_append.1 h with h | h
            · exact .inl h
            · exact (ih h).imp_right (List.mem_cons_of_mem d)
          · rcases List.mem_cons.1 h with rfl | h
            · exact .inr List.mem_cons_self
            · exact (ih h).imp_right (List.mem_cons_of_mem d)

/-! ## Spelling -/

mutual

/-- A target as it is spelled, without its package. -/
def spelled : Target → String
  | ⟨qualifiedName, args⟩ =>
      simpleName qualifiedName
        ++ (if args.isEmpty then "" else "<" ++ ", ".intercalate (spelledAll args) ++ ">")

/-- Type arguments as they are spelled. -/
def spelledAll : List Target → List String
  | [] => []
  | t :: rest => spelled t :: spelledAll rest

end

mutual

/-- The qualified names in a target. -/
def names : Target → List String
  | ⟨qualifiedName, args⟩ => qualifiedName :: namesAll args

/-- The qualified names in type arguments. -/
def namesAll : List Target → List String
  | [] => []
  | t :: rest => names t ++ namesAll rest

end

end Target

namespace TypeExpr

mutual

/-- The type arguments in a type expression, at any depth. -/
def nested : TypeExpr → List TypeExpr
  | ⟨_, _, args⟩ => nestedAll args

/-- Type arguments and those in them. -/
def nestedAll : List TypeExpr → List TypeExpr
  | [] => []
  | t :: rest => t :: (nested t ++ nestedAll rest)

end

theorem forall_mem_nestedAll_cons {arg : TypeExpr} {rest : List TypeExpr} {p : TypeExpr → Prop} :
    (∀ a ∈ nestedAll (arg :: rest), p a)
      ↔ (∀ a ∈ arg :: arg.nested, p a) ∧ ∀ a ∈ nestedAll rest, p a := by
  rw [nestedAll, ← List.cons_append, List.forall_mem_append]

/-- An array has no type arguments, so nothing stands between the name and the brackets. -/
def IsTight (t : TypeExpr) : Prop :=
  t.isArray = true → t.args = []

instance (t : TypeExpr) : Decidable t.IsTight :=
  inferInstanceAs (Decidable (t.isArray = true → t.args = []))

/-- No array among the type arguments has type arguments. -/
def NoGenericArray (t : TypeExpr) : Prop :=
  ∀ arg ∈ t.nested, arg.IsTight

instance (t : TypeExpr) : Decidable t.NoGenericArray :=
  inferInstanceAs (Decidable (∀ arg ∈ t.nested, arg.IsTight))

/-- No array among the type arguments has a package. -/
def NoQualifiedArray (package : String) (t : TypeExpr) : Prop :=
  ∀ arg ∈ t.nested, arg.isArray = true → packageOf (Target.substitute package arg.name) = ""

instance (package : String) (t : TypeExpr) : Decidable (t.NoQualifiedArray package) :=
  inferInstanceAs (Decidable (∀ arg ∈ t.nested, arg.isArray = true →
    packageOf (Target.substitute package arg.name) = ""))

namespace Token

/-- A token as it is spelled with a root package: names without package, and a blank after each
comma. -/
def spelled (package : String) : Token → List Char
  | name text => (simpleName (Target.substitute package (String.ofList text))).toList
  | brackets => ['[', ']']
  | mark ',' => [',', ' ']
  | mark c => [c]

/-- The name that a token is. -/
def name? : Token → Option String
  | name text => some (String.ofList text)
  | brackets => none
  | mark _ => none

end Token

/-- A text as it is spelled with a root package, token by token. -/
def spelledText (package : String) (text : List Char) : String :=
  String.ofList ((Token.scan text).flatMap (Token.spelled package))

/-- The qualified names in a text, with a root package. -/
def namesOfText (package : String) (text : List Char) : List String :=
  ((Token.scan text).filterMap Token.name?).map (Target.substitute package)

variable {package : String}

theorem isEmpty_ofTypeExprs (package : String) (args : List TypeExpr) :
    (Target.ofTypeExprs package args).isEmpty = args.isEmpty := by
  cases args with
  | nil => rfl
  | cons arg rest => rfl

/-- The name of an array has its brackets after it when it has been put in a package. -/
theorem spelled_label {name : String} {isArray : Bool} {args : List TypeExpr} :
    (simpleName (Target.substitute package (label ⟨name, isArray, args⟩))).toList
      = (Token.spelled package (.name name.toList))
        ++ (if isArray then [.brackets] else []).flatMap (Token.spelled package) := by
  rw [Token.spelled, String.ofList_toList]
  cases isArray with
  | true =>
      rw [label, if_pos rfl, Target.substitute_append_brackets, simpleName_append_brackets,
        String.toList_append]
      rfl
  | false => exact (List.append_nil _).symm

theorem agree_args {args : List TypeExpr}
    (hargs : Agree (∀ arg ∈ nestedAll args, arg.IsTight)
      (", ".intercalate (Target.spelledAll (Target.ofTypeExprs package args)) ++ ">").toList
      ((tokensOfArgs args).flatMap (Token.spelled package))) :
    Agree (∀ arg ∈ nestedAll args, arg.IsTight)
      (if (Target.ofTypeExprs package args).isEmpty then ""
        else "<" ++ ", ".intercalate (Target.spelledAll (Target.ofTypeExprs package args))
          ++ ">").toList
      ((if args.isEmpty then [] else .mark '<' :: tokensOfArgs args).flatMap
        (Token.spelled package)) := by
  rw [isEmpty_ofTypeExprs]
  cases args with
  | nil => exact (Agree.refl []).congr (by simp [nestedAll])
  | cons arg rest =>
      rw [List.isEmpty_cons, if_neg Bool.false_ne_true, if_neg Bool.false_ne_true,
        String.append_assoc, String.toList_append, List.flatMap_cons]
      exact ((Agree.refl ['<']).append hargs).congr (by rw [true_and])

mutual

/-- A type argument is spelled as its tokens are exactly if no array in it has type arguments. -/
theorem agree_ofTypeExpr (package : String) : ∀ t : TypeExpr,
    Agree (∀ arg ∈ t :: t.nested, arg.IsTight)
      (Target.ofTypeExpr package t).spelled.toList (t.tokens.flatMap (Token.spelled package))
  | ⟨name, isArray, args⟩ => by
      have hargs := agree_args (agree_ofTypeExprs package args)
      rw [Target.ofTypeExpr, Target.spelled, String.toList_append, spelled_label, tokens,
        List.flatMap_cons, List.flatMap_append, List.append_assoc]
      refine ((Agree.refl _).append ?_).congr (by rw [true_and])
      cases isArray with
      | false =>
          rw [if_neg Bool.false_ne_true, List.flatMap_nil, List.nil_append, List.append_nil]
          refine hargs.congr ?_
          rw [List.forall_mem_cons, nested]
          exact ⟨fun h => ⟨nofun, h⟩, fun h => h.2⟩
      | true =>
          cases args with
          | nil =>
              refine (Agree.refl ['[', ']']).congr ?_
              simp [nested, nestedAll, IsTight]
          | cons arg rest =>
              -- The brackets come before the type arguments, but after them in the text.
              refine ⟨fun h => ?_, fun _ => ⟨[], _, _, rfl, rfl⟩⟩
              cases h _ List.mem_cons_self rfl

/-- So are type arguments, with a blank after each comma. -/
theorem agree_ofTypeExprs (package : String) : ∀ args : List TypeExpr,
    Agree (∀ arg ∈ nestedAll args, arg.IsTight)
      (", ".intercalate (Target.spelledAll (Target.ofTypeExprs package args)) ++ ">").toList
      ((tokensOfArgs args).flatMap (Token.spelled package))
  | [] => by
      rw [Target.ofTypeExprs, Target.spelledAll, String.intercalate_nil]
      exact (Agree.refl ['>']).congr (by simp [nestedAll])
  | [arg] => by
      have harg := (agree_ofTypeExpr package arg).append (Agree.refl ['>'])
      rw [Target.ofTypeExprs, Target.ofTypeExprs, Target.spelledAll, Target.spelledAll,
        String.intercalate_singleton, String.toList_append, tokensOfArgs, List.flatMap_append]
      refine harg.congr ?_
      rw [and_true, nestedAll, nestedAll, List.append_nil]
  | arg :: next :: rest => by
      have hcomma := (agree_ofTypeExpr package arg).append
        ((Agree.refl [',', ' ']).append (agree_ofTypeExprs package (next :: rest)))
      rw [Target.ofTypeExprs, Target.spelledAll] at hcomma
      rw [Target.ofTypeExprs, Target.ofTypeExprs, Target.spelledAll, Target.spelledAll,
        String.intercalate_cons_cons, String.append_assoc, String.append_assoc,
        String.toList_append, String.toList_append, tokensOfArgs_cons _ (List.cons_ne_nil _ _),
        List.flatMap_append, List.flatMap_cons]
      refine hcomma.congr ?_
      rw [true_and]
      exact forall_mem_nestedAll_cons.symm

end

mutual

theorem names_ofTypeExpr : ∀ t : TypeExpr, (Target.ofTypeExpr package t).names
    = (t :: t.nested).map fun arg => Target.substitute package arg.label
  | ⟨name, isArray, args⟩ => by
      rw [Target.ofTypeExpr, Target.names, names_ofTypeExprs args, nested, List.map_cons]

theorem names_ofTypeExprs : ∀ args : List TypeExpr,
    Target.namesAll (Target.ofTypeExprs package args)
      = (nestedAll args).map fun arg => Target.substitute package arg.label
  | [] => rfl
  | arg :: rest => by
      rw [Target.ofTypeExprs, Target.namesAll, names_ofTypeExpr arg, names_ofTypeExprs rest,
        nestedAll, List.map_cons, List.map_cons, List.map_append, List.cons_append]

end

mutual

theorem filterMap_name?_tokens : ∀ t : TypeExpr,
    t.tokens.filterMap Token.name? = (t :: t.nested).map (·.name)
  | ⟨name, isArray, args⟩ => by
      have hargs := filterMap_name?_tokensOfArgs args
      have hname : Token.name? (.name name.toList) = some name :=
        congrArg some String.ofList_toList
      have hbrackets : (if isArray then [Token.brackets] else []).filterMap Token.name? = [] := by
        cases isArray with
        | true => rfl
        | false => rfl
      rw [tokens, List.filterMap_cons_some hname, List.filterMap_append, hbrackets, List.append_nil,
        List.map_cons, nested, ← hargs]
      cases args with
      | nil => rfl
      | cons arg rest => rfl

theorem filterMap_name?_tokensOfArgs : ∀ args : List TypeExpr,
    (tokensOfArgs args).filterMap Token.name? = (nestedAll args).map (·.name)
  | [] => rfl
  | [arg] => by
      rw [tokensOfArgs, List.filterMap_append, filterMap_name?_tokens arg, nestedAll, nestedAll,
        List.append_nil]
      exact List.append_nil _
  | arg :: next :: rest => by
      rw [tokensOfArgs_cons _ (List.cons_ne_nil _ _), List.filterMap_append,
        filterMap_name?_tokens arg, nestedAll, ← List.cons_append, List.map_append,
        ← filterMap_name?_tokensOfArgs (next :: rest)]
      rfl

end

/-! ## The target of a rule -/

/-- The target that a type expression is for a rule, which keeps the brackets apart. -/
def toTarget (package : String) (t : TypeExpr) : Target :=
  ⟨Target.substitute package t.name, Target.ofTypeExprs package t.args⟩

variable {text : List Char} {t : TypeExpr}

/-- The target of a rule is spelled as its text is, with the brackets after it, exactly if no array
among its type arguments has type arguments. -/
theorem spelled_toTarget_iff (hparse : parse text = .ok t) :
    (t.toTarget package).spelled ++ (if t.isArray then "[]" else "") = spelledText package text
      ↔ t.NoGenericArray := by
  obtain ⟨hscan, -⟩ := parse_eq_ok_iff.1 hparse
  obtain ⟨name, isArray, args⟩ := t
  have hname : (simpleName (Target.substitute package name)).toList
      = Token.spelled package (.name name.toList) := by
    rw [Token.spelled, String.ofList_toList]
  have hbrackets : (if isArray then "[]" else "").toList
      = (if isArray then [Token.brackets] else []).flatMap (Token.spelled package) := by
    cases isArray with
    | true => rfl
    | false => rfl
  have hagree := (Agree.refl (Token.spelled package (.name name.toList))).append
    ((agree_args (agree_ofTypeExprs package args)).append
      (Agree.refl ((if isArray then [Token.brackets] else []).flatMap (Token.spelled package))))
  rw [true_and, and_true] at hagree
  rw [← String.toList_inj, spelledText, String.toList_ofList, hscan, tokens, toTarget,
    Target.spelled, String.toList_append, String.toList_append, hname, hbrackets,
    List.flatMap_cons, List.flatMap_append, List.append_assoc]
  exact hagree.eq_iff

theorem names_toTarget : (t.toTarget package).names
    = Target.substitute package t.name
      :: t.nested.map fun arg => Target.substitute package arg.label := by
  obtain ⟨name, isArray, args⟩ := t
  rw [toTarget, Target.names, names_ofTypeExprs, nested]

theorem namesOfText_of_parse (hparse : parse text = .ok t) : namesOfText package text
    = Target.substitute package t.name
      :: t.nested.map fun arg => Target.substitute package arg.name := by
  rw [namesOfText, (parse_eq_ok_iff.1 hparse).1, filterMap_name?_tokens, List.map_map]
  rfl

/-- Brackets after a name change nothing about its package. -/
theorem packageOf_substitute_label (arg : TypeExpr) :
    packageOf (Target.substitute package arg.label)
      = packageOf (Target.substitute package arg.name) := by
  rw [label]
  split
  · rw [Target.substitute_append_brackets, packageOf_append_brackets]
  · rfl

/-- The names with a package in the target of a rule are those in its text, if no array among its
type arguments has a package. -/
theorem mem_names_toTarget_iff (hparse : parse text = .ok t) (h : t.NoQualifiedArray package)
    {q : String} (hq : packageOf q ≠ "") :
    q ∈ (t.toTarget package).names ↔ q ∈ namesOfText package text := by
  have hlabel : ∀ arg ∈ t.nested, (Target.substitute package arg.label = q
      ↔ Target.substitute package arg.name = q) := by
    intro arg harg
    cases harray : arg.isArray with
    | false => rw [label, harray, if_neg Bool.false_ne_true]
    | true =>
        -- Neither the name nor the label of such an array has a package.
        have hnone := h arg harg harray
        constructor
        · rintro rfl
          exact absurd ((packageOf_substitute_label arg).trans hnone) hq
        · rintro rfl
          exact absurd hnone hq
  rw [names_toTarget, namesOfText_of_parse hparse, List.mem_cons, List.mem_cons, List.mem_map,
    List.mem_map]
  refine or_congr_right (exists_congr fun arg => and_congr_right fun harg => hlabel arg harg)

mutual

theorem isName_of_mem_nested {arg : TypeExpr} : ∀ t : TypeExpr, t.isNamed = true →
    arg ∈ t :: t.nested → isName arg.name.toList = true
  | ⟨name, isArray, args⟩, hnamed, harg => by
      obtain ⟨hname, hargs⟩ := Bool.and_eq_true_iff.1 hnamed
      rcases List.mem_cons.1 harg with rfl | harg
      · exact hname
      · exact isName_of_mem_nestedAll args hargs harg

theorem isName_of_mem_nestedAll {arg : TypeExpr} : ∀ args : List TypeExpr, areNamed args = true →
    arg ∈ nestedAll args → isName arg.name.toList = true
  | first :: rest, hnamed, harg => by
      obtain ⟨hfirst, hrest⟩ := Bool.and_eq_true_iff.1 hnamed
      rw [nestedAll, ← List.cons_append] at harg
      rcases List.mem_append.1 harg with harg | harg
      · exact isName_of_mem_nested first hfirst harg
      · exact isName_of_mem_nestedAll rest hrest harg

end

/-- No name in a text has a bracket in it, unless the root package has. -/
theorem not_mem_of_mem_namesOfText (hparse : parse text = .ok t) (hpackage : ']' ∉ package.toList)
    {q : String} (hq : q ∈ namesOfText package text) : ']' ∉ q.toList := by
  obtain ⟨-, hnamed⟩ := parse_eq_ok_iff.1 hparse
  rw [namesOfText_of_parse hparse, ← List.map_cons (f := fun arg : TypeExpr =>
    Target.substitute package arg.name)] at hq
  obtain ⟨arg, harg, rfl⟩ := List.mem_map.1 hq
  rw [Target.substitute, String.toList_ofList]
  intro hmem
  rcases Target.mem_of_mem_replaceFrom hmem with hmem | hmem
  · exact hpackage hmem
  · exact absurd (isNamePart_of_isName (isName_of_mem_nested t hnamed harg) hmem) (by decide)

/-- The names with a package in the target of a rule are without brackets exactly if no array among
its type arguments has a package, or if the root package has brackets itself. -/
theorem noQualifiedArray_iff (hparse : parse text = .ok t) (hpackage : ']' ∉ package.toList) :
    t.NoQualifiedArray package
      ↔ ∀ q ∈ (t.toTarget package).names, packageOf q ≠ "" → ']' ∉ q.toList := by
  constructor
  · intro h q hmem hq
    exact not_mem_of_mem_namesOfText hparse hpackage ((mem_names_toTarget_iff hparse h hq).1 hmem)
  · intro h arg harg harray
    by_contra hq
    have hmem : Target.substitute package arg.label ∈ (t.toTarget package).names := by
      rw [names_toTarget]
      exact List.mem_cons_of_mem _ (List.mem_map_of_mem harg)
    have hclose := h _ hmem (by rwa [packageOf_substitute_label])
    rw [label, harray, if_pos rfl, Target.substitute_append_brackets,
      String.toList_append] at hclose
    exact hclose (List.mem_append_right _ (by decide +kernel))

end TypeExpr

end ApiTypes
