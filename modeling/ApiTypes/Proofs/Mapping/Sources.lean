import ApiTypes.Mapping.Rule
import ApiTypes.Proofs.Mapping.Tokens
import ApiTypes.Proofs.Text.Padding

/-!
# Sources of rules

A rule on one line is cut at its first arrow or at sign, so the texts before a cut are those without
one of these (`Rule.split?_eq_some_iff`, `Rule.split?_eq_none_iff`). What stands before the cut is a
type, or a type and a format with a colon between them, with blanks around both
(`Rule.source?_eq_some_iff`). A source is both at once (`Rule.IsSource`).

A rule for schemas can be given as a source and a target as well. Where the source has no arrow and
no at sign it makes no difference, whatever the target is (`Rule.parseType_or_typeOfParts`).
-/

set_option autoImplicit false

namespace ApiTypes

namespace Rule

/-! ## Where a rule on one line is cut -/

/-- How a separator is written. -/
def Separator.chars : Separator → List Char
  | arrow => ['=', '>']
  | atSign => ['@']

variable {text source body : List Char} {separator : Separator}

theorem split?_cons {c : Char} (harrow : ¬ (c = '=' ∧ text.head? = some '>')) (hat : c ≠ '@') :
    split? (c :: text)
      = (split? text).map fun (source, separator, body) => (c :: source, separator, body) := by
  rw [split?]
  · rintro rest rfl rfl
    exact harrow ⟨rfl, rfl⟩
  · exact hat

theorem head?_ne_of_not_arrow {c : Char} (h : ∀ rest, c = '=' → text = '>' :: rest → False) :
    ¬ (c = '=' ∧ text.head? = some '>') := by
  rintro ⟨rfl, hhead⟩
  obtain ⟨rest, rfl⟩ := List.head?_eq_some_iff.1 hhead
  exact h rest rfl rfl

/-- A text is cut where it was cut before more was written after it. -/
theorem split?_append_of_some (h : split? text = some (source, separator, body))
    (more : List Char) : split? (text ++ more) = some (source, separator, body ++ more) := by
  induction text using split?.induct generalizing source separator body with
  | case1 => cases h
  | case2 rest =>
      cases h
      rfl
  | case3 rest =>
      cases h
      rfl
  | case4 c rest harrow hat ih =>
      have harrow' := head?_ne_of_not_arrow harrow
      rw [split?_cons harrow' hat] at h
      obtain ⟨⟨inner, found, after⟩, hrest, hcut⟩ := Option.map_eq_some_iff.1 h
      cases hcut
      -- A rest that is cut is not empty, so the same character comes after this one as before.
      obtain ⟨d, rest, rfl⟩ := List.exists_cons_of_ne_nil (l := rest) (by rintro rfl; cases hrest)
      rw [List.cons_append, split?_cons (by simpa using harrow') hat, ih hrest]
      rfl

/-- A text that is not cut anywhere is cut at a separator after it. -/
theorem split?_append_of_none (h : split? text = none) (separator : Separator)
    (body : List Char) :
    split? (text ++ (separator.chars ++ body)) = some (text, separator, body) := by
  induction text using split?.induct with
  | case1 =>
      cases separator with
      | arrow => rfl
      | atSign => rfl
  | case2 rest => cases h
  | case3 rest => cases h
  | case4 c rest harrow hat ih =>
      have harrow' := head?_ne_of_not_arrow harrow
      rw [split?_cons harrow' hat, Option.map_eq_none_iff] at h
      have hhead : ¬ (c = '=' ∧ (rest ++ (separator.chars ++ body)).head? = some '>') := by
        cases rest with
        | nil =>
            -- No separator begins as an arrow goes on.
            cases separator with
            | arrow => simp [Separator.chars]
            | atSign => simp [Separator.chars]
        | cons d rest => simpa using harrow'
      rw [List.cons_append, split?_cons hhead hat, ih h]
      rfl

/-- A text is cut at the first separator in it. -/
theorem split?_eq_some_iff : split? text = some (source, separator, body)
    ↔ split? source = none ∧ text = source ++ (separator.chars ++ body) := by
  constructor
  · intro h
    induction text using split?.induct generalizing source separator body with
    | case1 => cases h
    | case2 rest =>
        cases h
        exact ⟨rfl, rfl⟩
    | case3 rest =>
        cases h
        exact ⟨rfl, rfl⟩
    | case4 c rest harrow hat ih =>
        have harrow' := head?_ne_of_not_arrow harrow
        rw [split?_cons harrow' hat] at h
        obtain ⟨⟨inner, found, after⟩, hrest, hcut⟩ := Option.map_eq_some_iff.1 h
        cases hcut
        obtain ⟨hnone, rfl⟩ := ih hrest
        have hinner : ¬ (c = '=' ∧ inner.head? = some '>') := by
          cases inner with
          | nil => simp
          | cons d inner => simpa using harrow'
        rw [split?_cons hinner hat, hnone]
        exact ⟨rfl, rfl⟩
  · rintro ⟨hnone, rfl⟩
    exact split?_append_of_none hnone separator body

/-- A text without an arrow and without an at sign is not cut. -/
theorem split?_eq_none_iff : split? text = none ↔ '@' ∉ text ∧ ¬ ['=', '>'] <:+: text := by
  induction text using split?.induct with
  | case1 => simp [split?]
  | case2 rest =>
      have harrow : ['=', '>'] <:+: '=' :: '>' :: rest := ⟨[], rest, rfl⟩
      simp [split?, harrow]
  | case3 rest => simp [split?]
  | case4 c rest harrow hat ih =>
      have harrow' := head?_ne_of_not_arrow harrow
      have hstart : ¬ ['=', '>'] <+: c :: rest := by
        rintro ⟨more, hmore⟩
        cases hmore
        exact harrow' ⟨rfl, rfl⟩
      rw [split?_cons harrow' hat, Option.map_eq_none_iff, ih, List.infix_cons_iff, List.mem_cons]
      simp [hstart, Ne.symm hat]

theorem split?_append_blank (h : split? text = none) : split? (text ++ [' ']) = none := by
  obtain ⟨hat, harrow⟩ := split?_eq_none_iff.1 h
  rw [split?_eq_none_iff, List.infix_concat_iff]
  refine ⟨by simp [hat], ?_⟩
  rintro (⟨before, hbefore⟩ | hinfix)
  · simpa using congrArg List.getLast? hbefore
  · exact harrow hinfix

/-- A text that is not cut anywhere is cut at an arrow with blanks around it. -/
theorem split?_append_arrow (h : split? text = none) (body : List Char) :
    split? (text ++ ' ' :: '=' :: '>' :: body) = some (text ++ [' '], .arrow, body) := by
  have hcut := split?_append_of_none (split?_append_blank h) .arrow body
  rwa [List.append_assoc] at hcut

/-! ## What stands before the cut -/

/-- A type in a source. -/
def IsSourceType (text : List Char) : Prop :=
  text ≠ [] ∧ ∀ c ∈ text, Text.isBlank c = false ∧ c ≠ ':'

/-- A format in a source. -/
def IsSourceFormat (text : List Char) : Prop :=
  text ≠ [] ∧ ∀ c ∈ text, Text.isBlank c = false

/-- A source as it is written, with blanks around its parts. -/
inductive Spells : List Char → RuleSource → Prop
  /-- A type alone. -/
  | type {type text : List Char} (htype : IsSourceType type) (h : Text.Padded type text) :
      Spells text ⟨String.ofList type, none⟩
  /-- A type and a format with a colon between them. -/
  | format {type format left right : List Char} (htype : IsSourceType type)
      (hformat : IsSourceFormat format) (hleft : Text.Padded type left)
      (hright : Text.Padded format right) :
      Spells (left ++ ':' :: right) ⟨String.ofList type, some (String.ofList format)⟩

theorem IsSourceFormat.trimmed {format : List Char} (h : IsSourceFormat format) :
    Text.Trimmed format :=
  .of_forall h.2

theorem IsSourceType.isSourceFormat {type : List Char} (h : IsSourceType type) :
    IsSourceFormat type :=
  ⟨h.1, fun c hc => (h.2 c hc).1⟩

/-- The characters of a type in a source. -/
def inSourceType (c : Char) : Bool := !Text.isBlank c && c != ':'

theorem isSourceType_iff {type : List Char} :
    IsSourceType type ↔ type ≠ [] ∧ ∀ c ∈ type, inSourceType c = true := by
  simp [IsSourceType, inSourceType]

theorem source?_eq (text : List Char) :
    source? text =
      if ((Text.trim text).takeWhile inSourceType).isEmpty then none
      else
        match Text.trimStart ((Text.trim text).dropWhile inSourceType) with
        | [] => some ⟨String.ofList ((Text.trim text).takeWhile inSourceType), none⟩
        | c :: more =>
            if c == ':' && !(Text.trimStart more).isEmpty
                && (Text.trimStart more).all (fun d => !Text.isBlank d) then
              some ⟨String.ofList ((Text.trim text).takeWhile inSourceType),
                some (String.ofList (Text.trimStart more))⟩
            else none :=
  rfl

/-- What is read as a source is written so. -/
theorem spells_of_source? {source : RuleSource} (h : source? text = some source) :
    Spells text source := by
  rw [source?_eq] at h
  have hpadded := Text.padded_trim text
  generalize Text.trim text = trimmed at h hpadded
  -- From here on the type and what follows it take the place of the trimmed text.
  have hsplit := List.takeWhile_append_dropWhile (p := inSourceType) (l := trimmed)
  have hin : ∀ c ∈ trimmed.takeWhile inSourceType, inSourceType c = true :=
    fun c hc => List.mem_takeWhile_imp hc
  generalize trimmed.takeWhile inSourceType = type at h hsplit hin
  generalize trimmed.dropWhile inSourceType = rest at h hsplit
  subst hsplit
  obtain ⟨blanks, hblanks, hrest⟩ := Text.exists_trimStart rest
  split at h
  · cases h
  · rename_i hne
    have htype : IsSourceType type := isSourceType_iff.2 ⟨by simpa using hne, hin⟩
    split at h
    · rename_i hnil
      cases h
      rw [hnil, List.append_nil] at hrest
      subst hrest
      exact .type htype ((Text.padded_append type hblanks).trans hpadded)
    · rename_i c more hmore
      split at h
      · rename_i hformat
        cases h
        simp only [Bool.and_eq_true, beq_iff_eq, Bool.not_eq_true', List.isEmpty_eq_false_iff,
          List.all_eq_true] at hformat
        obtain ⟨⟨rfl, hne'⟩, hall⟩ := hformat
        obtain ⟨gap, hgap, hmore'⟩ := Text.exists_trimStart more
        obtain ⟨before, after, hbefore, hafter, rfl⟩ := hpadded
        have hcut : before ++ (type ++ rest ++ after)
            = (before ++ (type ++ blanks)) ++ ':' :: (gap ++ (Text.trimStart more ++ after)) := by
          rw [hrest, hmore]
          conv_lhs => rw [hmore']
          simp
        rw [hcut]
        exact .format htype ⟨hne', hall⟩ ⟨before, blanks, hbefore, hblanks, rfl⟩
          ⟨gap, after, hgap, hafter, rfl⟩
      · cases h

/-- A type with blanks around it is read as the type. -/
theorem source?_of_type {type : List Char} (htype : IsSourceType type)
    (h : Text.Padded type text) : source? text = some ⟨String.ofList type, none⟩ := by
  have htrim : Text.trim text = type :=
    Text.trim_eq_iff.2 ⟨h, htype.isSourceFormat.trimmed⟩
  have hin := (isSourceType_iff.1 htype).2
  have htake := List.takeWhile_eq_self_iff.2 hin
  have hdrop := List.dropWhile_eq_nil_iff.2 hin
  simp [source?_eq, htrim, htake, hdrop, htype.1]

/-- A type and a format with a colon between them are read as these. -/
theorem source?_of_format {type format left right : List Char} (htype : IsSourceType type)
    (hformat : IsSourceFormat format) (hleft : Text.Padded type left)
    (hright : Text.Padded format right) :
    source? (left ++ ':' :: right)
      = some ⟨String.ofList type, some (String.ofList format)⟩ := by
  obtain ⟨before, gap, hbefore, hgap, rfl⟩ := hleft
  obtain ⟨gap', after, hgap', hafter, rfl⟩ := hright
  have htrim : Text.trim (before ++ (type ++ gap) ++ ':' :: (gap' ++ (format ++ after)))
      = type ++ (gap ++ ':' :: (gap' ++ format)) := by
    have hends := htype.isSourceFormat.trimmed.append (gap ++ ':' :: gap') htype.1 hformat.trimmed
      hformat.1
    rw [Text.trim_eq_iff]
    exact ⟨⟨before, after, hbefore, hafter, by simp⟩, by simpa using hends⟩
  have hstop : ∀ c, (gap ++ ':' :: (gap' ++ format)).head? = some c →
      inSourceType c = false := by
    intro c hc
    cases gap with
    | nil =>
        cases hc
        rfl
    | cons d gap =>
        cases hc
        simp [inSourceType, hgap c (by simp)]
  obtain ⟨htake, hdrop⟩ := Text.takeWhile_append_of_head (isSourceType_iff.1 htype).2 hstop
  have hcolon : Text.trimStart (gap ++ ':' :: (gap' ++ format)) = ':' :: (gap' ++ format) := by
    rw [Text.trimStart_of_isBlank hgap]
    rfl
  have hword : Text.trimStart (gap' ++ format) = format := by
    rw [Text.trimStart_of_isBlank hgap', Text.trimStart_of_head hformat.trimmed.head]
  rw [source?_eq, htrim, htake, hdrop, hcolon]
  simpa [hword, htype.1, hformat.1] using hformat.2

/-- What is read as a source is what is written as one. -/
theorem source?_eq_some_iff {source : RuleSource} :
    source? text = some source ↔ Spells text source := by
  constructor
  · exact spells_of_source?
  · intro h
    cases h with
    | type htype h => exact source?_of_type htype h
    | format htype hformat hleft hright => exact source?_of_format htype hformat hleft hright

theorem source?_append_blank (text : List Char) : source? (text ++ [' ']) = source? text := by
  rw [source?, source?, Text.trim_append_blank text rfl]

/-- A text that can stand before the separator of a rule for schemas, and the source that it is:
it is written as a source, and a rule is not cut in it. -/
structure IsSource (text : List Char) (source : RuleSource) : Prop where
  /-- It is written as the source. -/
  spells : Spells text source
  /-- It has no at sign in it. -/
  noAtSign : '@' ∉ text
  /-- It has no arrow in it. -/
  noArrow : ¬ ['=', '>'] <:+: text

theorem isSource_iff {source : RuleSource} :
    IsSource text source ↔ split? text = none ∧ source? text = some source := by
  rw [split?_eq_none_iff, source?_eq_some_iff]
  constructor
  · rintro ⟨hspells, hat, harrow⟩
    exact ⟨⟨hat, harrow⟩, hspells⟩
  · rintro ⟨⟨hat, harrow⟩, hspells⟩
    exact ⟨hspells, hat, harrow⟩

/-! ## A source and a target -/

/-- A target that is written after an arrow. -/
theorem toList_append_arrow (source target : String) :
    (source ++ " => " ++ target).toList
      = source.toList ++ ' ' :: '=' :: '>' :: ' ' :: target.toList := by
  rw [String.append_assoc, String.toList_append, String.toList_append]
  rfl

/-- A blank before a target makes no difference, also where it cannot be read. -/
theorem withTarget_cons_blank (rule : Rule) (target : String) (line : String) :
    (∃ found, rule.withTarget target.toList target = .ok found
        ∧ rule.withTarget (' ' :: target.toList) line = .ok found)
      ∨ (rule.withTarget target.toList target = .error (.badTarget target)
        ∧ rule.withTarget (' ' :: target.toList) line = .error (.badTarget line)) := by
  have hsame (t : TypeExpr) : TypeExpr.parse (' ' :: target.toList) = .ok t
      ↔ TypeExpr.parse target.toList = .ok t := TypeExpr.parse_cons_of_isBlank rfl
  unfold withTarget
  cases htarget : TypeExpr.parse target.toList with
  | ok t =>
      left
      rw [(hsame t).2 htarget]
      exact ⟨_, rfl, rfl⟩
  | error fault =>
      right
      refine ⟨rfl, ?_⟩
      cases hline : TypeExpr.parse (' ' :: target.toList) with
      | ok t =>
          rw [(hsame t).1 hline] at htarget
          cases htarget
      | error fault => rfl

/-- **A source and a target give the rule that they give on one line**, if the source has no arrow
and no at sign. Where there is none, the format is at fault both times, in the source or else in the
target; only the text that is told differs. -/
theorem parseType_or_typeOfParts {source : String} (target : String) (hat : '@' ∉ source.toList)
    (harrow : ¬ ['=', '>'] <:+: source.toList) :
    (∃ rule, typeOfParts source target = .ok rule
        ∧ parseType (source ++ " => " ++ target) = .ok rule)
      ∨ (typeOfParts source target = .error (.badSource source)
        ∧ parseType (source ++ " => " ++ target)
          = .error (.badSource (source ++ " => " ++ target)))
      ∨ (typeOfParts source target = .error (.badTarget target)
        ∧ parseType (source ++ " => " ++ target)
          = .error (.badTarget (source ++ " => " ++ target))) := by
  have hcut := split?_append_arrow (split?_eq_none_iff.2 ⟨hat, harrow⟩) (' ' :: target.toList)
  have hline := toList_append_arrow source target
  generalize source ++ " => " ++ target = line at hline
  rw [typeOfParts, parseType, hline, hcut]
  simp only [source?_append_blank]
  cases source? source.toList with
  | none =>
      right; left
      exact ⟨rfl, rfl⟩
  | some found =>
      rcases withTarget_cons_blank { kind := .type, source := found } target line with hok | hbad
      · left
        exact hok
      · right; right
        exact hbad

/-- A source that ends in an equals sign, with a target that can be read, and with one that has an
arrow and an at sign in it. -/
theorem parseType_or_typeOfParts_equals :
    let source := "Page :a="
    let page := "io.Page< byte[]>"
    let bad := "io.A => @B"
    '@' ∉ source.toList ∧ ¬ ['=', '>'] <:+: source.toList
      ∧ (∃ rule, typeOfParts source page = .ok rule
        ∧ parseType (source ++ " => " ++ page) = .ok rule)
      ∧ typeOfParts source bad = .error (.badTarget bad)
      ∧ parseType (source ++ " => " ++ bad) = .error (.badTarget (source ++ " => " ++ bad)) := by
  intro source page bad
  have hat : '@' ∉ source.toList := by decide +kernel
  have harrow : ¬ ['=', '>'] <:+: source.toList := by decide +kernel
  have hsource : source? source.toList = some ⟨"Page", some "a="⟩ := by decide +kernel
  have hpage : (typeOfParts source page).isOk = true := by decide +kernel
  have hbad : (typeOfParts source bad).isOk = false := by decide +kernel
  have hnot (target : String) : typeOfParts source target ≠ .error (.badSource source) := by
    rw [typeOfParts, hsource]
    simp only [withTarget]
    split <;> simp
  refine ⟨hat, harrow, ?_⟩
  constructor
  · rcases parseType_or_typeOfParts page hat harrow with hok | ⟨hparts, -⟩ | ⟨hparts, -⟩
    · exact hok
    · exact absurd hparts (hnot page)
    · rw [hparts] at hpage
      cases hpage
  · rcases parseType_or_typeOfParts bad hat harrow with ⟨rule, hparts, -⟩ | ⟨hparts, -⟩ | hfails
    · rw [hparts] at hbad
      cases hbad
    · exact absurd hparts (hnot bad)
    · exact hfails

end Rule

end ApiTypes
