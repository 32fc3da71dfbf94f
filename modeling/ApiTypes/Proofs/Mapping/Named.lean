import ApiTypes.Proofs.Mapping.Inlined
import ApiTypes.Proofs.Text.Padding

/-!
# Names and targets apart

The entry for a parameter or for responses of a content type gives the name and the target on one
line, or apart from each other. Where the name has no arrow and no at sign in it, both ways give the
same rule or none at all, with one exception: a name of blanks alone is refused on a line, but where
the target is apart, it becomes the empty name (`Mapping.normalize_apart`).
-/

set_option autoImplicit false

namespace ApiTypes

namespace Rule

variable {source target : String} {t : TypeExpr}

/-! ## A name on one line -/

/-- A line without an arrow or an at sign in the name, before its name is looked at. -/
theorem parseUse_append_arrow_eq (hat : '@' ∉ source.toList)
    (harrow : ¬ ['=', '>'] <:+: source.toList) (target : String) :
    parseUse (source ++ " => " ++ target)
      = if (Text.trim source.toList).isEmpty then .error (.noSource (source ++ " => " ++ target))
        else withTarget { kind := .use, source := ⟨Text.trimmed source, none⟩ }
          (' ' :: target.toList) (source ++ " => " ++ target) := by
  have hcut := split?_append_arrow (split?_eq_none_iff.2 ⟨hat, harrow⟩) (' ' :: target.toList)
  rw [parseUse, toList_append_arrow, hcut]
  simp only [Text.trim_append_blank source.toList (c := ' ') rfl]
  rfl

variable (hat : '@' ∉ source.toList) (harrow : ¬ ['=', '>'] <:+: source.toList)

include hat harrow

/-- A line whose name is blank is refused, whatever the target is. -/
theorem parseUse_of_allBlank (hblank : Text.AllBlank source.toList) (target : String) :
    parseUse (source ++ " => " ++ target)
      = .error (.noSource (source ++ " => " ++ target)) := by
  have hempty : (Text.trim source.toList).isEmpty = true := by
    rw [List.isEmpty_iff, Text.trim_eq_nil_iff]
    exact hblank
  rw [parseUse_append_arrow_eq hat harrow, if_pos hempty]

/-- Any other line is a rule exactly if its target can be read. -/
theorem parseUse_of_not_allBlank (hblank : ¬ Text.AllBlank source.toList) (target : String) :
    parseUse (source ++ " => " ++ target)
      = withTarget { kind := .use, source := ⟨Text.trimmed source, none⟩ }
        (' ' :: target.toList) (source ++ " => " ++ target) := by
  have hempty : ¬ (Text.trim source.toList).isEmpty = true := by
    rw [List.isEmpty_iff, Text.trim_eq_nil_iff]
    exact hblank
  rw [parseUse_append_arrow_eq hat harrow, if_neg hempty]

end Rule

namespace Mapping

/-- Entries without further type arguments have the rule that is read first. -/
theorem normalize_of_generics_nil {place : Section} {e : Entry} (h : e.generics = []) :
    normalize place e = entryRule place e := by
  rw [normalize, h]
  cases entryRule place e with
  | error fault => rfl
  | ok rule =>
      by_cases hkind : rule.kind = .annotate
      · exact if_pos hkind
      · exact if_neg hkind

namespace Form

/-- The way to write an entry with its source and its target apart from each other. -/
def apart : Form → Form
  | schemaLine place => schemaParts place
  | parameterLine => parameterParts
  | responseLine => responseParts
  | form => form

/-- The ways to write an entry with a name on one line. -/
def HasNameOnLine (form : Form) : Prop := form = parameterLine ∨ form = responseLine

variable {form : Form} {source target : String}

theorem HasNameOnLine.normalize_eq (h : form.HasNameOnLine) (source target : String) :
    normalize form.place (form.entry source target [])
      = (Rule.parseUse (source ++ " => " ++ target)).mapError .rule := by
  rw [normalize_of_generics_nil (form.generics_entry source target [])]
  rcases h with rfl | rfl
  · rfl
  · rfl

theorem HasNameOnLine.normalize_apart_eq (h : form.HasNameOnLine) (source target : String) :
    normalize form.apart.place (form.apart.entry source target [])
      = (Rule.useOfParts source target).mapError .rule := by
  rw [normalize_of_generics_nil (form.apart.generics_entry source target [])]
  rcases h with rfl | rfl
  · rfl
  · rfl

end Form

/-- A target that can be read. -/
def IsTarget (target : String) : Prop := ∃ t, TypeExpr.parse target.toList = .ok t

/-- The rules of a name and a target, apart from each other and on one line, in the three cases that
there are. -/
theorem useOfParts_cases {source : String} (target : String) (hat : '@' ∉ source.toList)
    (harrow : ¬ ['=', '>'] <:+: source.toList) :
    let parts := Rule.useOfParts source target
    let line := Rule.parseUse (source ++ " => " ++ target)
    (¬ Text.AllBlank source.toList ∧ IsTarget target ∧
        ∃ rule, rule.kind = .use ∧ parts = .ok rule ∧ line = .ok rule) ∨
      (¬ IsTarget target ∧ ∃ fault fault', parts = .error fault ∧ line = .error fault') ∨
      (Text.AllBlank source.toList ∧ IsTarget target ∧
        ∃ rule, rule.kind = .use ∧ rule.source = ⟨"", none⟩ ∧ parts = .ok rule ∧
          line = .error (.noSource (source ++ " => " ++ target))) := by
  intro parts line
  cases htarget : TypeExpr.parse target.toList with
  | error fault =>
      have hnot : ¬ IsTarget target := by
        rintro ⟨t, ht⟩
        rw [ht] at htarget
        cases htarget
      have hparts : parts = .error (.badTarget target) := by
        simp only [parts, Rule.useOfParts, Rule.withTarget, htarget]
      right; left
      by_cases hblank : Text.AllBlank source.toList
      · exact ⟨hnot, _, _, hparts, Rule.parseUse_of_allBlank hat harrow hblank target⟩
      · have hline : line = _ := Rule.parseUse_of_not_allBlank hat harrow hblank target
        rcases Rule.withTarget_cons_blank { kind := .use, source := ⟨Text.trimmed source, none⟩ }
          target (source ++ " => " ++ target) with ⟨rule, hrule, -⟩ | ⟨-, hfault⟩
        · -- The target apart cannot be read, so it is not the first case.
          cases hparts.symm.trans hrule
        · exact ⟨hnot, _, _, hparts, hline.trans hfault⟩
  | ok t =>
      have hparts : parts = _ := Rule.useOfParts_of_parse htarget source
      by_cases hblank : Text.AllBlank source.toList
      · right; right
        have hname : Text.trimmed source = "" := by
          rw [Text.trimmed, Text.trim_eq_nil_iff.2 hblank, String.ofList_nil]
        rw [hname] at hparts
        exact ⟨hblank, ⟨t, htarget⟩, _, rfl, rfl, hparts,
          Rule.parseUse_of_allBlank hat harrow hblank target⟩
      · left
        have hline : line = _ := Rule.parseUse_of_not_allBlank hat harrow hblank target
        have hbody := (TypeExpr.parse_cons_of_isBlank (c := ' ') rfl).2 htarget
        rw [Rule.withTarget_of_parse hbody] at hline
        exact ⟨hblank, ⟨t, htarget⟩, _, rfl, hparts, hline⟩

/-- **A name and a target give the rule that they give on one line**, or none either way, if the
name has no arrow and no at sign, unless the name is blank. Both ways give the same rule exactly if
the name is not blank and the target can be read; both give none exactly if the target cannot be
read; and where the name is blank and the target can be read, apart from each other they give a rule
for the empty name, and on one line the name is missing. -/
theorem normalize_apart {form : Form} (hform : form.HasNameOnLine) {source : String}
    (target : String) (hat : '@' ∉ source.toList) (harrow : ¬ ['=', '>'] <:+: source.toList) :
    let parts := normalize form.apart.place (form.apart.entry source target [])
    let line := normalize form.place (form.entry source target [])
    ((∃ rule, rule.kind = .use ∧ parts = .ok rule ∧ line = .ok rule) ↔
        ¬ Text.AllBlank source.toList ∧ IsTarget target) ∧
      ((∃ fault fault', parts = .error (.rule fault) ∧ line = .error (.rule fault')) ↔
        ¬ IsTarget target) ∧
      ((∃ rule, rule.kind = .use ∧ rule.source = ⟨"", none⟩ ∧ parts = .ok rule ∧
          line = .error (.rule (.noSource (source ++ " => " ++ target)))) ↔
        Text.AllBlank source.toList ∧ IsTarget target) := by
  intro parts line
  have hparts : parts = _ := hform.normalize_apart_eq source target
  have hline : line = _ := hform.normalize_eq source target
  rcases useOfParts_cases target hat harrow with
    ⟨hblank, htarget, rule, hkind, hp, hl⟩ | ⟨htarget, fault, fault', hp, hl⟩
      | ⟨hblank, htarget, rule, hkind, hsource, hp, hl⟩
  · rw [hp] at hparts
    rw [hl] at hline
    simp [hparts, hline, Except.mapError, hblank, htarget, hkind]
  · rw [hp] at hparts
    rw [hl] at hline
    simp [hparts, hline, Except.mapError, htarget]
  · rw [hp] at hparts
    rw [hl] at hline
    simp [hparts, hline, Except.mapError, hblank, htarget, hkind, hsource]

/-- A name that ends in an equals sign gives one rule both ways, and blanks alone give the empty
name where the target is apart from them. -/
theorem normalize_apart_blanks :
    let name := "page ="
    let blanks := " \t"
    let target := "io.Page< int[]>"
    Form.parameterLine.HasNameOnLine ∧ Form.responseLine.HasNameOnLine
      ∧ '@' ∉ name.toList ∧ ¬ ['=', '>'] <:+: name.toList
      ∧ '@' ∉ blanks.toList ∧ ¬ ['=', '>'] <:+: blanks.toList
      ∧ (∃ rule, rule.kind = .use
        ∧ normalize .parameters { name := some name, target := some target } = .ok rule
        ∧ normalize .parameters { name := some (name ++ " => " ++ target) } = .ok rule)
      ∧ ∃ rule, rule.kind = .use ∧ rule.source = ⟨"", none⟩
        ∧ normalize .responses { content := some blanks, target := some target } = .ok rule
        ∧ normalize .responses { content := some (blanks ++ " => " ++ target) }
          = .error (.rule (.noSource (blanks ++ " => " ++ target))) := by
  intro name blanks target
  have hname : '@' ∉ name.toList ∧ ¬ ['=', '>'] <:+: name.toList := by decide +kernel
  have hblanks : '@' ∉ blanks.toList ∧ ¬ ['=', '>'] <:+: blanks.toList := by decide +kernel
  have htarget : IsTarget target := ⟨⟨"io.Page", false, [⟨"int", true, []⟩]⟩, by decide +kernel⟩
  have hnot : ¬ Text.AllBlank name.toList := by
    intro h
    exact absurd (h 'p' (by decide)) (by decide)
  have hall : Text.AllBlank blanks.toList := List.all_eq_true.mp (by decide +kernel)
  refine ⟨.inl rfl, .inr rfl, hname.1, hname.2, hblanks.1, hblanks.2, ?_, ?_⟩
  · exact (normalize_apart (.inl rfl) target hname.1 hname.2).1.2 ⟨hnot, htarget⟩
  · exact (normalize_apart (.inr rfl) target hblanks.1 hblanks.2).2.2.2 ⟨hall, htarget⟩

end Mapping

end ApiTypes
