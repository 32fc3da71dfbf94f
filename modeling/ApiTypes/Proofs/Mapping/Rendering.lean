import ApiTypes.Proofs.Document.Loops
import ApiTypes.Proofs.Mapping.Annotations

/-!
# Annotations that are rendered as they are read

An annotation that a rule adds is rendered with the names of its arguments and with their literals.
The grammar of rules wants identifiers for names. A reader asks for less: whatever stands before an
equals sign is taken for a name, also if it is empty or has blanks in it. So there are rules that
are read though the grammar does not have them, namely those with arguments whose names are no
identifiers, and their annotations are not rendered as arguments are written
(`Rule.parseType_annotate_grammar`). An annotation with the literal of a class is not either if the
last part of the name of the class, which is all that is rendered of it, is no identifier.
-/

set_option autoImplicit false

namespace ApiTypes

namespace Rule

open Annotation (render renderArgument)
open Text (AllBlank IsWord Padded Trimmed)

/-! ## Literals that are rendered -/

variable {text value : List Char} {e p : String × Argument}
  {entries ps : List (String × Argument)}

/-- What stands before the word `class` in a literal is the name of a class. -/
theorem isClassName_of_literal {name : List Char} {a : Argument}
    (h : Literal (name ++ ".class".toList) a) :
    isClassName name = true := by
  have hlast : (name ++ ".class".toList).getLast? = some 's' := by
    rw [List.getLast?_append_of_ne_nil _ (by simp)]
    rfl
  have hpoint : '.' ∈ name ++ ".class".toList := by simp
  generalize htext : name ++ ".class".toList = text at h hlast hpoint
  cases h with
  | string h =>
      rw [quoted, List.getLast?_cons_of_ne_nil (by simp), List.getLast?_concat] at hlast
      cases hlast
  | number h =>
      rcases h.char_cases 's' (List.mem_of_getLast? hlast) with hdigit | hpoint | hminus
      · exact absurd hdigit (by decide)
      · cases hpoint
      · cases hminus
  | boolean b =>
      cases b with
      | true => exact absurd hpoint (by decide)
      | false => exact absurd hpoint (by decide)
  | classOf h hlast =>
      rwa [List.append_cancel_right htext]

theorem isIdentifier_simpleName_iff {name : String} :
    IsIdentifier (simpleName name).toList ↔ isClassName (simpleName name).toList = true := by
  have hlast : IsLastPart (simpleName name).toList name.toList := by
    rw [simpleName, String.toList_ofList]
    exact isLastPart_iff.2 rfl
  exact ⟨fun h => h.isClassName, fun h => ⟨h, hlast.1⟩⟩

/-- What is rendered for a literal is a literal, unless it is the literal of a class and the last
part of its name is no identifier. -/
theorem literal_value_iff {a : Argument} (h : Literal value a) :
    (∃ b, Literal a.value.toList b)
      ↔ ∀ name, a.importName = some name → IsIdentifier (simpleName name).toList := by
  cases h with
  | string h => simpa using ⟨_, Literal.string h⟩
  | number h => simpa using ⟨_, Literal.number h⟩
  | boolean b => simpa using ⟨_, Literal.boolean b⟩
  | @classOf name last h hlast =>
      have hsimple : (simpleName (String.ofList name)).toList = last := by
        rw [simpleName, String.toList_ofList, String.toList_ofList, isLastPart_iff.1 hlast]
      simp only [String.toList_ofList, Option.some_inj, forall_eq', isIdentifier_simpleName_iff,
        hsimple]
      constructor
      · rintro ⟨b, hb⟩
        exact isClassName_of_literal hb
      · intro hname
        exact ⟨_, .classOf hname ⟨hlast.1, .inl rfl⟩⟩

/-! ## Argument lists that are rendered -/

/-- The argument list of an annotation as it is rendered. -/
def renderedArguments (entries : List (String × Argument)) : String :=
  ", ".intercalate (entries.map (renderArgument (entries.length == 1)))

/-- An argument that a reader can give: a text that is taken for a name, and what a literal stands
for. -/
structure ReadEntry (e : String × Argument) : Prop where
  /-- The name is taken for one. -/
  looseName : LooseName e.1.toList
  /-- There is a literal. -/
  literal : ∃ value, Literal value e.2

theorem ReadEntry.atom (h : ReadEntry e) : Atom e.2.value.toList := by
  obtain ⟨value, hvalue⟩ := h.literal
  exact hvalue.atom_value

theorem renderArgument_eq_assignment {alone : Bool}
    (h : ¬ (alone = true ∧ e.1 = "value")) :
    renderArgument alone e = assignment (e.1, e.2.value) := by
  have hcond : ¬ (alone && e.1 == "value") = true := by simpa using h
  rw [renderArgument, if_neg hcond]
  rfl

theorem ReadEntry.closed (h : ReadEntry e) (alone : Bool) :
    Closed (renderArgument alone e).toList := by
  unfold renderArgument
  split
  · exact h.atom.closed
  · rw [String.toList_append, String.toList_append]
    have hname := closed_of_notMem h.looseName.noQuote h.looseName.noComma
    have hequals : Closed " = ".toList := closed_of_notMem (by decide) (by decide)
    exact (hname.append hequals).append h.atom.closed

/-- Closed texts with commas between them are cut at these commas. -/
theorem splitArguments_intercalate {first : String} {rest : List String}
    (h : ∀ text ∈ first :: rest, Closed text.toList) :
    splitArguments .outside (", ".intercalate (first :: rest)).toList
      = first.toList :: rest.map fun text => ' ' :: text.toList := by
  induction rest generalizing first with
  | nil =>
      rw [String.intercalate_singleton]
      exact splitArguments_of_noComma (h first (by simp)).noComma
  | cons next more ih =>
      have hfirst := h first (by simp)
      have hmore := ih fun text htext => h text (List.mem_cons_of_mem first htext)
      rw [toList_intercalate_cons first (List.cons_ne_nil next more),
        splitArguments_append_cons hfirst.noComma hfirst.afterAll]
      congr 1
      exact splitArguments_cons (by decide) hmore

/-- A literal that is rendered alone is read as `value`. -/
theorem ReadEntry.namedArgument?_alone {blanks : List Char} (h : ReadEntry e)
    (hblanks : AllBlank blanks) :
    namedArgument? 1 (blanks ++ e.2.value.toList)
      = some ("value".toList, e.2.value.toList) := by
  have hnone := splitAssignment?_append_of_none hblanks h.atom.splitAssignment?_eq_none
  have hpadded := Text.padded_prepend hblanks e.2.value.toList
  rw [namedArgument?, hnone, Text.trim_eq_iff.2 ⟨hpadded, h.atom.trimmed⟩]
  rfl

/-- An assignment that is rendered is cut at the equals sign between the name and the literal. -/
theorem ReadEntry.namedArgument?_assignment {blanks : List Char} (h : ReadEntry e)
    (hblanks : AllBlank blanks) (count : ℕ) :
    namedArgument? count (blanks ++ (assignment (e.1, e.2.value)).toList)
      = some (e.1.toList, e.2.value.toList) := by
  have hblank : AllBlank [' '] := Text.allBlank_singleton rfl
  have hleft : Padded e.1.toList (blanks ++ (e.1.toList ++ [' '])) :=
    ⟨blanks, [' '], hblanks, hblank, rfl⟩
  have hright := Text.padded_prepend hblank e.2.value.toList
  have hcut : splitAssignment? (blanks ++ (assignment (e.1, e.2.value)).toList)
      = some (blanks ++ (e.1.toList ++ [' ']), [' '] ++ e.2.value.toList) := by
    rw [splitAssignment?_eq_some_iff, toList_assignment]
    exact ⟨by simp, mt (hleft.mem_of_not_blank rfl) h.looseName.noEquals,
      mt (hleft.mem_of_not_blank rfl) h.looseName.noQuote⟩
  rw [namedArgument?, hcut]
  simp only [Text.trim_eq_iff.2 ⟨hleft, h.looseName.trimmed⟩,
    Text.trim_eq_iff.2 ⟨hright, h.atom.trimmed⟩]

/-- Where an argument that was rendered is read, it has the same name, and what was rendered of its
literal is a literal. -/
theorem ReadEntry.of_readsAs {count : ℕ} {blanks : List Char} (h : ReadEntry e)
    (hblanks : AllBlank blanks)
    (hread : ReadsAs count (blanks ++ (renderArgument (count == 1) e).toList) p) :
    p.1 = e.1 ∧ Literal e.2.value.toList p.2 := by
  have hrendered : namedArgument? count (blanks ++ (renderArgument (count == 1) e).toList)
      = some (e.1.toList, e.2.value.toList) := by
    -- The only argument is rendered without its name if this is `value`.
    by_cases halone : (count == 1) = true ∧ e.1 = "value"
    · obtain ⟨hcount, hvalue⟩ := halone
      cases beq_iff_eq.1 hcount
      have htext : renderArgument (1 == 1) e = e.2.value := by simp [renderArgument, hvalue]
      rw [htext, h.namedArgument?_alone hblanks, hvalue]
    · rw [renderArgument_eq_assignment halone, h.namedArgument?_assignment hblanks]
  obtain ⟨name, value, hnamed, hname, hvalue⟩ := hread
  rw [hrendered] at hnamed
  cases hnamed
  exact ⟨hname.trans String.ofList_toList, argument?_eq_some_iff.1 ⟨hvalue, h.atom.lineEnd_notMem⟩⟩

theorem ReadEntry.rendered_ne_nil (h : ReadEntry e) (alone : Bool) :
    (renderArgument alone e).toList ≠ [] := by
  unfold renderArgument
  split
  · exact h.atom.ne_nil
  · simp [String.toList_append]

/-- The parts of an argument list as it is rendered. -/
theorem splitArguments_rendered {first : String × Argument} {rest : List (String × Argument)}
    (h : ∀ e ∈ first :: rest, ReadEntry e) :
    splitArguments .outside (renderedArguments (first :: rest)).toList
      = (renderArgument ((first :: rest).length == 1) first).toList
        :: rest.map fun e =>
          ' ' :: (renderArgument ((first :: rest).length == 1) e).toList := by
  rw [renderedArguments, List.map_cons, splitArguments_intercalate, List.map_map]
  · rfl
  · intro text htext
    rw [← List.map_cons] at htext
    obtain ⟨e, he, rfl⟩ := List.mem_map.1 htext
    exact (h e he).closed _

theorem renderedArguments_ne_nil {first : String × Argument} {rest : List (String × Argument)}
    (h : ∀ e ∈ first :: rest, ReadEntry e) : (renderedArguments (first :: rest)).toList ≠ [] := by
  intro hnil
  have hsplit := splitArguments_rendered h
  rw [hnil] at hsplit
  exact (h first (by simp)).rendered_ne_nil _ (List.cons.inj hsplit).1.symm

/-- Arguments that are rendered as the grammar says have identifiers for names, and what is rendered
of their literals are literals. -/
theorem identifiers_of_rendered (hne : entries ≠ []) (h : ∀ e ∈ entries, ReadEntry e)
    (hargs : ArgumentText IsIdentifier (renderedArguments entries).toList ps) :
    ∀ e ∈ entries, IsIdentifier e.1.toList ∧ ∃ a, Literal e.2.value.toList a := by
  obtain ⟨first, rest, rfl⟩ := List.exists_cons_of_ne_nil hne
  have hnames := hargs.names ⟨by decide, by decide⟩
  have hloose := hargs.imp fun p _ hp => looseName_of_isWord hp.isWord
  have hreads := hloose.reads (renderedArguments_ne_nil h)
  rw [splitArguments_rendered h, List.length_cons, List.length_map, ← List.length_cons] at hreads
  -- Each argument is read from its part, where a blank comes first unless it is the first part.
  have hone : ∀ e ∈ first :: rest, ∃ blanks, AllBlank blanks ∧ ∃ p ∈ ps,
      ReadsAs (first :: rest).length
        (blanks ++ (renderArgument ((first :: rest).length == 1) e).toList) p := by
    cases hreads with
    | @cons _ p _ ps hfirst hrest =>
        intro e he
        rcases List.mem_cons.1 he with rfl | he
        · exact ⟨[], Text.allBlank_nil, p, by simp, hfirst⟩
        · rw [List.forall₂_map_left_iff] at hrest
          obtain ⟨p, hp, hread⟩ := exists_of_mem_forall₂_left hrest he
          exact ⟨[' '], Text.allBlank_singleton rfl, p, by simp [hp], hread⟩
  intro e he
  obtain ⟨blanks, hblanks, p, hp, hread⟩ := hone e he
  obtain ⟨hname, hliteral⟩ := (h e he).of_readsAs hblanks hread
  exact ⟨hname ▸ hnames p hp, p.2, hliteral⟩

theorem exists_writes
    (h : ∀ e ∈ entries, IsIdentifier e.1.toList ∧ ∃ a, Literal e.2.value.toList a) :
    ∃ ps, List.Forall₂ (Writes IsIdentifier) (entries.map fun e => (e.1, e.2.value)) ps := by
  induction entries with
  | nil => exact ⟨[], .nil⟩
  | cons e rest ih =>
      obtain ⟨hname, a, hliteral⟩ := h e (by simp)
      obtain ⟨ps, hps⟩ := ih fun e he => h e (by simp [he])
      exact ⟨(e.1, a) :: ps, .cons ⟨hname, rfl, hliteral⟩ hps⟩

/-- Arguments with identifiers for names and with literals are rendered as the grammar says. -/
theorem rendered_of_identifiers (hne : entries ≠ [])
    (h : ∀ e ∈ entries, IsIdentifier e.1.toList ∧ ∃ a, Literal e.2.value.toList a) :
    ∃ ps, ArgumentText IsIdentifier (renderedArguments entries).toList ps := by
  by_cases halone : ∃ a, entries = [("value", a)]
  · obtain ⟨a, rfl⟩ := halone
    obtain ⟨-, b, hliteral⟩ := h ("value", a) (by simp)
    refine ⟨[("value", b)], ?_⟩
    rw [renderedArguments, List.map_singleton, String.intercalate_singleton]
    exact .alone hliteral
  · -- Every argument is rendered with its name.
    have hrendered : renderedArguments entries
        = ", ".intercalate ((entries.map fun e => (e.1, e.2.value)).map assignment) := by
      rw [renderedArguments, List.map_map]
      congr 1
      refine List.map_congr_left fun e he => renderArgument_eq_assignment ?_
      rintro ⟨hone, hvalue⟩
      obtain ⟨only, rfl⟩ := List.length_eq_one_iff.1 (by simpa using hone)
      cases List.mem_singleton.1 he
      exact halone ⟨e.2, by rw [← hvalue]⟩
    obtain ⟨ps, hps⟩ := exists_writes h
    rw [hrendered]
    exact ⟨ps, .named (arguments_intercalate hps (by simpa using hne))⟩

/-! ## Annotations -/

/-- An annotation is rendered without arguments, or with arguments between parentheses that are as
the grammar says. -/
inductive WellRendered (a : Annotation) : Prop
  /-- It is rendered without arguments. -/
  | bare (h : a.render = "@" ++ a.name) : WellRendered a
  /-- It is rendered with arguments as the grammar says. -/
  | applied {inner : String} {ps : List (String × Argument)}
      (hargs : ArgumentText IsIdentifier inner.toList ps)
      (h : a.render = "@" ++ a.name ++ "(" ++ inner ++ ")") : WellRendered a

variable {a : Annotation}

theorem render_eq (hne : a.arguments.entries ≠ []) :
    a.render = "@" ++ a.name ++ "(" ++ renderedArguments a.arguments.entries ++ ")" := by
  simp [render, OrderedMap.isEmpty, OrderedMap.size, renderedArguments, hne]

theorem wellRendered_iff_exists (hne : a.arguments.entries ≠ []) :
    WellRendered a
      ↔ ∃ ps, ArgumentText IsIdentifier (renderedArguments a.arguments.entries).toList ps := by
  constructor
  · intro h
    cases h with
    | bare h =>
        -- What is rendered with parentheses is longer.
        rw [render_eq hne] at h
        have htext := congrArg String.toList h
        simp [String.toList_append] at htext
    | @applied inner ps hargs h =>
        rw [render_eq hne] at h
        have hinner : renderedArguments a.arguments.entries = inner := by
          have htext := congrArg String.toList h
          simpa [String.toList_append, String.toList_inj] using htext
        exact ⟨ps, hinner ▸ hargs⟩
  · rintro ⟨ps, hargs⟩
    exact .applied hargs (render_eq hne)

/-- An annotation that was read is rendered as the grammar says if the names of its arguments are
identifiers, and so are the last parts of the names of classes. -/
theorem wellRendered_iff (h : ∀ e ∈ a.arguments.entries, ReadEntry e) :
    WellRendered a ↔ (∀ n ∈ a.arguments.keys, IsIdentifier n.toList)
      ∧ ∀ argument ∈ a.arguments.values, ∀ n, argument.importName = some n →
        IsIdentifier (simpleName n).toList := by
  have hliteral : ∀ e ∈ a.arguments.entries, (∃ b, Literal e.2.value.toList b)
      ↔ ∀ n, e.2.importName = some n → IsIdentifier (simpleName n).toList := by
    intro e he
    obtain ⟨value, hvalue⟩ := (h e he).literal
    exact literal_value_iff hvalue
  have hall : ((∀ n ∈ a.arguments.keys, IsIdentifier n.toList)
      ∧ ∀ argument ∈ a.arguments.values, ∀ n, argument.importName = some n →
        IsIdentifier (simpleName n).toList)
      ↔ ∀ e ∈ a.arguments.entries, IsIdentifier e.1.toList ∧ ∃ b, Literal e.2.value.toList b := by
    rw [OrderedMap.keys, OrderedMap.values, List.forall_mem_map, List.forall_mem_map,
      ← forall₂_and]
    exact forall₂_congr fun e he => and_congr_right fun _ => (hliteral e he).symm
  rw [hall]
  by_cases hne : a.arguments.entries = []
  · have hbare : a.render = "@" ++ a.name := by
      simp [render, OrderedMap.isEmpty, hne]
    simp [hne, WellRendered.bare hbare]
  · rw [wellRendered_iff_exists hne]
    constructor
    · rintro ⟨ps, hargs⟩
      exact identifiers_of_rendered hne h hargs
    · exact rendered_of_identifiers hne

/-! ## Rules that the grammar does not have -/

variable {line : String} {rule : Rule}

/-- The arguments of a rule that is read are such as a reader can give. -/
theorem AnnotationLine.readEntry (h : AnnotationLine LooseName text rule)
    (ha : rule.annotation = some a) :
    ∀ e ∈ a.arguments.entries, ReadEntry e := by
  intro e he
  cases h with
  | mk hsource hbody hargs =>
      cases ha
      have hmem := OrderedMap.mem_entries_ofList he
      have hvalue : IsWord "value".toList := IsIdentifier.isWord ⟨by decide, by decide⟩
      exact ⟨hargs.names (looseName_of_isWord hvalue) e hmem, hargs.literal e hmem⟩

/-- The names of arguments in the grammar are identifiers, and nothing else about a rule that is
read is missing. -/
theorem annotationLine_isIdentifier_iff (ha : rule.annotation = some a) :
    AnnotationLine IsIdentifier text rule ↔ AnnotationLine LooseName text rule
      ∧ ∀ n ∈ a.arguments.keys, IsIdentifier n.toList := by
  constructor
  · intro h
    refine ⟨h.imp fun name hname => looseName_of_isWord hname.isWord, ?_⟩
    cases h with
    | mk hsource hbody hargs =>
        cases ha
        intro n hn
        rw [OrderedMap.keys_ofList, List.mem_eraseDups, List.mem_map] at hn
        obtain ⟨p, hp, rfl⟩ := hn
        exact hargs.names ⟨by decide, by decide⟩ p hp
  · rintro ⟨h, hnames⟩
    cases h with
    | mk hsource hbody hargs =>
        cases ha
        refine .mk hsource hbody (hargs.imp fun p hp _ => hnames p.1 ?_)
        rw [OrderedMap.keys_ofList, List.mem_eraseDups]
        exact List.mem_map_of_mem hp

/-- **Rules with annotations are as the grammar says, but for the names of arguments.** The text of
such a rule is made as the grammar says of whatever is taken for a name. The grammar itself has it
exactly if the names of all arguments are identifiers, which no reader checks; and the annotation is
rendered as the grammar says exactly if, besides, the last parts of the names of classes in it are
identifiers. -/
theorem parseType_annotate_grammar (h : parseType line = .ok rule)
    (hkind : rule.kind = .annotate) :
    ∃ a, rule.annotation = some a ∧ AnnotationLine LooseName line.toList rule
      ∧ ((∃ derived, AnnotationLine IsIdentifier line.toList derived)
        ↔ ∀ n ∈ a.arguments.keys, IsIdentifier n.toList)
      ∧ (WellRendered a ↔ (∀ n ∈ a.arguments.keys, IsIdentifier n.toList)
        ∧ ∀ argument ∈ a.arguments.values, ∀ n, argument.importName = some n →
          IsIdentifier (simpleName n).toList) := by
  have hline := parseType_annotate_iff.1 ⟨h, hkind⟩
  obtain ⟨a, ha⟩ : ∃ a, rule.annotation = some a := by
    generalize line.toList = text at hline
    cases hline
    exact ⟨_, rfl⟩
  refine ⟨a, ha, hline, ?_, wellRendered_iff (hline.readEntry ha)⟩
  constructor
  · rintro ⟨derived, hderived⟩
    -- A text is read as one rule only.
    have hloose := hderived.imp fun name hname => looseName_of_isWord hname.isWord
    have hread := (parseType_annotate_iff.2 hloose).1
    rw [h] at hread
    cases hread
    exact ((annotationLine_isIdentifier_iff ha).1 hderived).2
  · intro hnames
    exact ⟨rule, (annotationLine_isIdentifier_iff ha).2 ⟨hline, hnames⟩⟩

/-- A rule that is read though nothing stands before the equals sign. -/
theorem parseType_annotate_grammar_unnamed :
    ∃ rule a, parseType "Foo @ io.Ann(= 5)" = .ok rule ∧ rule.kind = .annotate
      ∧ rule.annotation = some a ∧ a.arguments.keys = [""]
      ∧ (¬ ∃ derived, AnnotationLine IsIdentifier "Foo @ io.Ann(= 5)".toList derived)
      ∧ ¬ WellRendered a := by
  have hread : (parseType "Foo @ io.Ann(= 5)").toOption.map
      (fun rule => (rule.kind, rule.annotation.map (·.arguments.keys)))
      = some (.annotate, some [""]) := by decide +kernel
  obtain ⟨rule, hrule, hparts⟩ := Option.map_eq_some_iff.1 hread
  have hparse : parseType "Foo @ io.Ann(= 5)" = .ok rule := by
    cases hresult : parseType "Foo @ io.Ann(= 5)" with
    | ok found =>
        rw [hresult] at hrule
        cases hrule
        rfl
    | error fault =>
        rw [hresult] at hrule
        cases hrule
  obtain ⟨hkind, hkeys⟩ := Prod.mk.inj hparts
  obtain ⟨a, ha, -, hderived, hrendered⟩ := parseType_annotate_grammar hparse hkind
  have hnames : a.arguments.keys = [""] := by
    rw [ha] at hkeys
    exact Option.some.inj hkeys
  have hnot : ¬ ∀ n ∈ a.arguments.keys, IsIdentifier n.toList := by
    intro hall
    have hempty := (hall "" (by rw [hnames]; exact List.mem_singleton.2 rfl)).isClassName
    exact absurd hempty (by decide)
  exact ⟨rule, a, hparse, hkind, ha, hnames, mt hderived.1 hnot,
    mt (fun h => (hrendered.1 h).1) hnot⟩

end Rule

end ApiTypes
