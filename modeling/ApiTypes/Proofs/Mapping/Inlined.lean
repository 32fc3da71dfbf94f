import ApiTypes.Mapping.Document
import ApiTypes.Proofs.Mapping.Sources
import ApiTypes.Proofs.Mapping.Tokens

/-!
# Type arguments in the target and beside it

The type arguments of a target may stand in the target itself or be given beside it as a list of
texts. Both are read by the same reader, and both give the same rule as long as no type argument in
the list is an array. Where one is, the list drops its square brackets, but the target keeps
them (`Mapping.normalize_generics_iff`). This is so for each of the ways to write an entry with a
target, whatever its source is: a source that is cut short by an arrow or an at sign of its own
gives no rule either way.
-/

set_option autoImplicit false

namespace ApiTypes

namespace TypeExpr

/-- A type expression without the square brackets after it. -/
def withoutBrackets (t : TypeExpr) : TypeExpr :=
  { t with isArray := false }

theorem withoutBrackets_eq_self_iff {t : TypeExpr} :
    t = t.withoutBrackets ↔ t.isArray = false := by
  cases t
  simp [withoutBrackets]

theorem map_withoutBrackets_eq_iff {args : List TypeExpr} :
    args = args.map withoutBrackets ↔ ∀ arg ∈ args, arg.isArray = false := by
  induction args with
  | nil => simp
  | cons arg rest ih => simp [withoutBrackets_eq_self_iff, ← ih]

end TypeExpr

namespace Rule

/-! ## A rule that is cut before its target -/

theorem cuts_equals : TypeExpr.Token.Cuts '=' := ⟨rfl, rfl, by decide, by decide⟩

theorem cuts_paren : TypeExpr.Token.Cuts ')' := ⟨rfl, rfl, by decide, by decide⟩

/-- A text with an arrow in it is no target. -/
theorem withTarget_append_arrow (rule : Rule) (before after : List Char) (text : String) :
    (rule.withTarget (before ++ ' ' :: '=' :: '>' :: after) text).toOption = none := by
  unfold withTarget
  split
  · rename_i t h
    exact absurd (by simp) (TypeExpr.not_mem_of_parse cuts_equals rfl h)
  · rfl

/-- A text with an arrow in it is no annotation, unless there is a parenthesis after the arrow. -/
theorem splitAnnotation?_append_arrow (before : List Char) {after : List Char} (h : ')' ∉ after) :
    splitAnnotation? (before ++ ' ' :: '=' :: '>' :: after) = none := by
  have htrim := Text.withoutBlanks_trim (before ++ ' ' :: '=' :: '>' :: after)
  unfold splitAnnotation?
  generalize Text.trim (before ++ ' ' :: '=' :: '>' :: after) = trimmed at htrim
  simp only
  split
  · rfl
  · have hdense : Text.withoutBlanks (trimmed.takeWhile isClassPart)
          ++ Text.withoutBlanks (Text.trimStart (trimmed.dropWhile isClassPart))
        = Text.withoutBlanks before ++ '=' :: '>' :: Text.withoutBlanks after := by
      rw [Text.withoutBlanks_trimStart, ← Text.withoutBlanks_append,
        List.takeWhile_append_dropWhile, htrim, Text.withoutBlanks_append]
      rfl
    split
    · rename_i hrest
      -- The name would be all that is no blank, but no name has an equals sign.
      rw [hrest] at hdense
      have hmem : '=' ∈ Text.withoutBlanks (trimmed.takeWhile isClassPart) := by
        rw [← List.append_nil (Text.withoutBlanks _)]
        exact hdense ▸ List.mem_append_right _ List.mem_cons_self
      exact absurd (List.mem_takeWhile_imp (List.mem_of_mem_filter hmem)) (by decide)
    · rename_i rest hrest
      refine if_neg ?_
      rintro hclosed
      -- The closing parenthesis would be the last character, and so come after the arrow.
      obtain ⟨hlast, -⟩ := Bool.and_eq_true_iff.1 hclosed
      obtain ⟨inner, rfl⟩ := List.getLast?_eq_some_iff.1 (beq_iff_eq.1 hlast)
      have hend : (Text.withoutBlanks before
          ++ '=' :: '>' :: Text.withoutBlanks after).getLast? = some ')' := by
        rw [← hdense, hrest, ← List.cons_append, Text.withoutBlanks_append, ← List.append_assoc]
        exact List.getLast?_concat
      rw [List.getLast?_append_of_ne_nil _ (List.cons_ne_nil _ _)] at hend
      have hmem := List.mem_of_getLast? hend
      simp [Text.withoutBlanks, h] at hmem
    · rfl

/-! ## A source and a target -/

variable {target : String} {t : TypeExpr}

/-- A rule that is given the target `t`. -/
def withExpr (rule : Rule) (t : TypeExpr) : Rule :=
  { rule with target := some t.name, isArray := t.isArray, generics := t.args }

theorem withTarget_of_parse {rule : Rule} {body : List Char} (h : TypeExpr.parse body = .ok t)
    (text : String) : rule.withTarget body text = .ok (rule.withExpr t) := by
  rw [withTarget, h]
  rfl

/-- What a source of a rule for schemas on one line tells, if it is cut nowhere. -/
def lineSource? (source : String) : Option RuleSource :=
  if (split? source.toList).isSome then none else source? source.toList

theorem parseType_append_arrow (htarget : TypeExpr.parse target.toList = .ok t) (source : String) :
    (parseType (source ++ " => " ++ target)).toOption
      = (lineSource? source).map fun found => withExpr { kind := .type, source := found } t := by
  rw [parseType, toList_append_arrow, lineSource?]
  cases hcut : split? source.toList with
  | none =>
      rw [split?_append_arrow hcut, Option.isSome_none, if_neg (by simp),
        ← source?_append_blank source.toList]
      cases hfound : source? (source.toList ++ [' ']) with
      | none => simp [Except.toOption, hfound]
      | some found =>
          have hbody := (TypeExpr.parse_cons_of_isBlank (c := ' ') rfl).2 htarget
          simp [hfound, withTarget_of_parse hbody, Except.toOption]
  | some cut =>
      obtain ⟨before, separator, body⟩ := cut
      -- The arrow before the target comes after the cut, where none may be.
      rw [split?_append_of_some hcut, Option.isSome_some, if_pos rfl, Option.map_none]
      simp only
      split
      · rfl
      · cases separator with
        | arrow => exact withTarget_append_arrow _ _ _ _
        | atSign =>
            have hparen : ')' ∉ ' ' :: target.toList := by
              simpa using TypeExpr.not_mem_of_parse cuts_paren rfl htarget
            unfold readAnnotation
            simp [splitAnnotation?_append_arrow body hparen, Except.toOption]

theorem typeOfParts_of_parse (htarget : TypeExpr.parse target.toList = .ok t) (source : String) :
    (typeOfParts source target).toOption
      = (source? source.toList).map fun found => withExpr { kind := .type, source := found } t := by
  rw [typeOfParts]
  cases hfound : source? source.toList with
  | none => rfl
  | some found =>
      simp only
      rw [withTarget_of_parse htarget]
      rfl

/-- What a name on one line tells, if it is cut nowhere. -/
def lineName? (source : String) : Option RuleSource :=
  if (split? source.toList).isSome || (Text.trim source.toList).isEmpty then none
  else some ⟨Text.trimmed source, none⟩

theorem parseUse_append_arrow (htarget : TypeExpr.parse target.toList = .ok t) (source : String) :
    (parseUse (source ++ " => " ++ target)).toOption
      = (lineName? source).map fun found => withExpr { kind := .use, source := found } t := by
  rw [parseUse, toList_append_arrow, lineName?]
  cases hcut : split? source.toList with
  | none =>
      have hbody := (TypeExpr.parse_cons_of_isBlank (c := ' ') rfl).2 htarget
      rw [split?_append_arrow hcut, Option.isSome_none, Bool.false_or]
      simp only [Text.trim_append_blank source.toList (c := ' ') rfl]
      split
      · rfl
      · rw [withTarget_of_parse hbody]
        rfl
  | some cut =>
      obtain ⟨before, separator, body⟩ := cut
      rw [split?_append_of_some hcut, Option.isSome_some, Bool.true_or, if_pos rfl]
      cases separator with
      | arrow =>
          simp only
          split
          · rfl
          · exact withTarget_append_arrow _ _ _ _
      | atSign => rfl

theorem useOfParts_of_parse (htarget : TypeExpr.parse target.toList = .ok t) (source : String) :
    useOfParts source target
      = .ok (withExpr { kind := .use, source := ⟨Text.trimmed source, none⟩ } t) := by
  rw [useOfParts, withTarget_of_parse htarget]

/-! ## Type arguments beside the target -/

/-- The type arguments of a list come after those that are there, without their brackets. -/
theorem addGenerics_of_parse {texts : List String} {args : List TypeExpr}
    (h : List.Forall₂ (fun text arg => TypeExpr.parse text.toList = .ok arg) texts args)
    (rule : Rule) : rule.addGenerics texts
      = .ok { rule with generics := rule.generics ++ args.map TypeExpr.withoutBrackets } := by
  induction h generalizing rule with
  | nil => simp [addGenerics]
  | cons htext _ ih =>
      rw [addGenerics, readTarget, htext]
      simp only
      rw [ih]
      simp [TypeExpr.withoutBrackets]

end Rule

namespace Mapping

/-! ## Ways to write an entry -/

/-- The ways to write an entry with a target. -/
inductive Form where
  /-- A rule for schemas on one line, in one of the lists. -/
  | schemaLine (place : Section)
  /-- The source and the target of a rule for schemas, in one of the lists. -/
  | schemaParts (place : Section)
  /-- The name and the type of a parameter on one line. -/
  | parameterLine
  /-- The name of a parameter and its type. -/
  | parameterParts
  /-- A content type and the type of the responses on one line. -/
  | responseLine
  /-- A content type and the type of the responses. -/
  | responseParts
  deriving DecidableEq

namespace Form

/-- The list that the entry stands in. -/
def place : Form → Section
  | schemaLine place => place
  | schemaParts place => place
  | parameterLine => .parameters
  | parameterParts => .parameters
  | responseLine => .responses
  | responseParts => .responses

/-- An entry with a source and a target, and type arguments beside it. -/
def entry (source target : String) (generics : List String) : Form → Entry
  | schemaLine _ => { type := some (source ++ " => " ++ target), generics }
  | schemaParts _ => { source := some source, target := some target, generics }
  | parameterLine => { name := some (source ++ " => " ++ target), generics }
  | parameterParts => { name := some source, target := some target, generics }
  | responseLine => { content := some (source ++ " => " ++ target), generics }
  | responseParts => { content := some source, target := some target, generics }

/-- The rule of an entry apart from its target, unless the source is none. -/
def head? (source : String) : Form → Option Rule
  | schemaLine _ => (Rule.lineSource? source).map fun found => { kind := .type, source := found }
  | schemaParts _ =>
      (Rule.source? source.toList).map fun found => { kind := .type, source := found }
  | parameterLine | responseLine =>
      (Rule.lineName? source).map fun found => { kind := .use, source := found }
  | parameterParts | responseParts =>
      some { kind := .use, source := ⟨Text.trimmed source, none⟩ }

variable {target : String} {t : TypeExpr}

theorem toOption_mapError {ε ε' α : Type} (x : Except ε α) (f : ε → ε') :
    (x.mapError f).toOption = x.toOption := by
  cases x with
  | error e => rfl
  | ok a => rfl

/-- Each way to write an entry reads its source and gives the rule its target. -/
theorem entryRule_entry (form : Form) (htarget : TypeExpr.parse target.toList = .ok t)
    (source : String) (generics : List String) :
    (entryRule form.place (form.entry source target generics)).toOption
      = (form.head? source).map (·.withExpr t) := by
  cases form with
  | schemaLine place =>
      rw [head?, Option.map_map]
      exact (toOption_mapError _ _).trans (Rule.parseType_append_arrow htarget source)
  | schemaParts place =>
      rw [head?, Option.map_map]
      exact (toOption_mapError _ _).trans (Rule.typeOfParts_of_parse htarget source)
  | parameterLine =>
      rw [head?, Option.map_map]
      exact (toOption_mapError _ _).trans (Rule.parseUse_append_arrow htarget source)
  | responseLine =>
      rw [head?, Option.map_map]
      exact (toOption_mapError _ _).trans (Rule.parseUse_append_arrow htarget source)
  | parameterParts =>
      exact (toOption_mapError _ _).trans
        (congrArg Except.toOption (Rule.useOfParts_of_parse htarget source))
  | responseParts =>
      exact (toOption_mapError _ _).trans
        (congrArg Except.toOption (Rule.useOfParts_of_parse htarget source))

theorem kind_ne_annotate_of_head? {form : Form} {source : String} {rule : Rule}
    (h : form.head? source = some rule) : ¬ rule.kind = .annotate := by
  cases form with
  | schemaLine place =>
      obtain ⟨found, -, rfl⟩ := Option.map_eq_some_iff.1 h
      nofun
  | schemaParts place =>
      obtain ⟨found, -, rfl⟩ := Option.map_eq_some_iff.1 h
      nofun
  | parameterLine =>
      obtain ⟨found, -, rfl⟩ := Option.map_eq_some_iff.1 h
      nofun
  | responseLine =>
      obtain ⟨found, -, rfl⟩ := Option.map_eq_some_iff.1 h
      nofun
  | parameterParts =>
      cases h
      nofun
  | responseParts =>
      cases h
      nofun

@[simp] theorem generics_entry (form : Form) (source target : String) (generics : List String) :
    (form.entry source target generics).generics = generics := by
  cases form <;> rfl

/-- The rule of an entry has the type arguments of its target, and those beside it after them. -/
theorem normalize_entry (form : Form) (htarget : TypeExpr.parse target.toList = .ok t)
    (source : String) {texts : List String} {args : List TypeExpr}
    (htexts : List.Forall₂ (fun text arg => TypeExpr.parse text.toList = .ok arg) texts args) :
    (normalize form.place (form.entry source target texts)).toOption
      = (form.head? source).map
        (·.withExpr { t with args := t.args ++ args.map TypeExpr.withoutBrackets }) := by
  have hentry := entryRule_entry form htarget source texts
  rw [normalize, generics_entry]
  cases hrule : entryRule form.place (form.entry source target texts) with
  | error fault =>
      rw [hrule] at hentry
      rw [Option.map_eq_none_iff.1 hentry.symm]
      rfl
  | ok rule =>
      rw [hrule] at hentry
      obtain ⟨head, hhead, rfl⟩ := Option.map_eq_some_iff.1 hentry.symm
      have hhead' : ¬ head.kind = .annotate := kind_ne_annotate_of_head? hhead
      have hkind : ¬ (head.withExpr t).kind = .annotate := hhead'
      rw [hhead]
      change (if (head.withExpr t).kind = .annotate then pure (head.withExpr t)
        else ((head.withExpr t).addGenerics texts).mapError _).toOption = _
      rw [if_neg hkind, Rule.addGenerics_of_parse htexts]
      rfl

end Form

/-- Type arguments in a list beside the target give the rule that they give in the target, up to
the square brackets after them, which the list drops: the rules are the same exactly if no type
argument is an array, or if the source is none and there is no rule. -/
theorem normalize_generics_iff (form : Form) (source : String) {target name : String}
    {texts : List String} {args : List TypeExpr}
    (htarget : TypeExpr.parse target.toList = .ok (.ofName name))
    (htexts : List.Forall₂ (fun text arg => TypeExpr.parse text.toList = .ok arg) texts args)
    (hne : texts ≠ []) :
    let inlined := form.entry source (target ++ "<" ++ ", ".intercalate texts ++ ">") []
    let listed := form.entry source target texts
    (normalize form.place inlined).toOption
        = (form.head? source).map (·.withExpr ⟨name, false, args⟩)
      ∧ (normalize form.place listed).toOption
        = (form.head? source).map
          (·.withExpr ⟨name, false, args.map TypeExpr.withoutBrackets⟩)
      ∧ ((normalize form.place listed).toOption = (normalize form.place inlined).toOption
        ↔ form.head? source = none ∨ ∀ arg ∈ args, arg.isArray = false) := by
  intro inlined listed
  have hinlined : (normalize form.place inlined).toOption
      = (form.head? source).map (·.withExpr ⟨name, false, args⟩) := by
    have h := form.normalize_entry (TypeExpr.parse_withArgs htarget htexts hne) source .nil
    simpa using h
  have hlisted : (normalize form.place listed).toOption = (form.head? source).map
      (·.withExpr ⟨name, false, args.map TypeExpr.withoutBrackets⟩) :=
    form.normalize_entry htarget source htexts
  refine ⟨hinlined, hlisted, ?_⟩
  rw [hinlined, hlisted, ← TypeExpr.map_withoutBrackets_eq_iff]
  cases form.head? source with
  | none => simp
  | some head => simp [Rule.withExpr, eq_comm]

/-- A list of texts beside the target gives the rule of `io.Page<java.util.List<java.lang.String>>`,
but an array of bytes beside it does not give the rule of `io.Page<byte[]>`. -/
theorem normalize_generics_page :
    (normalize .types { type := some "Paged => io.Page", generics :=
        ["java.util.List<java.lang.String>"] }).toOption
      = (normalize .types
        { type := some "Paged => io.Page<java.util.List<java.lang.String>>" }).toOption
    ∧ (normalize .types { type := some "Paged => io.Page", generics := ["byte[]"] }).toOption
      ≠ (normalize .types { type := some "Paged => io.Page<byte[]>" }).toOption := by
  let form : Form := .schemaLine .types
  have hpage : TypeExpr.parse "io.Page".toList = .ok (.ofName "io.Page") := by decide +kernel
  have hstrings : List.Forall₂ (fun text arg => TypeExpr.parse text.toList = .ok arg)
      ["java.util.List<java.lang.String>"]
      [⟨"java.util.List", false, [.ofName "java.lang.String"]⟩] :=
    .cons (by decide +kernel) .nil
  have hbytes : List.Forall₂ (fun text arg => TypeExpr.parse text.toList = .ok arg)
      ["byte[]"] [⟨"byte", true, []⟩] := .cons (by decide +kernel) .nil
  have hsource : (form.head? "Paged").isSome = true := by decide +kernel
  have hlisted : ∀ texts, form.entry "Paged" "io.Page" texts
      = { type := some "Paged => io.Page", generics := texts } := fun _ => by
    simp [form, Form.entry]
  have hinlined : ∀ args, form.entry "Paged" ("io.Page" ++ "<" ++ args ++ ">") []
      = { type := some ("Paged => io.Page<" ++ args ++ ">") } := fun _ => by
    simp [form, Form.entry, ← String.append_assoc]
  constructor
  · have h := (normalize_generics_iff form "Paged" hpage hstrings (by simp)).2.2.2
      (.inr (by decide))
    rw [hlisted, hinlined] at h
    exact h
  · intro heq
    have h := (normalize_generics_iff form "Paged" hpage hbytes (by simp)).2.2.1
      (by rw [hlisted, hinlined]; exact heq)
    rcases h with hnone | hall
    · simp [hnone] at hsource
    · exact absurd (hall _ List.mem_cons_self) (by decide)

end Mapping

end ApiTypes
