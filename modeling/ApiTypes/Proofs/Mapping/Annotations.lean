import ApiTypes.Proofs.Mapping.Arguments
import ApiTypes.Proofs.Mapping.Sources
import ApiTypes.Proofs.Store.Appending

/-!
# Annotations in rules

After the at sign of a rule stands the name of an annotation, alone or with the text of arguments in
parentheses. The rules that are read as annotations are those whose texts are made of a source, an
at sign, a name and arguments (`Rule.parseType_annotate_iff`), where the names of arguments are what
a reader takes for them. The arguments that are written into such a rule are those that it has, in
their order, whatever their strings are made of (`Rule.parseType_assignments`).
-/

set_option autoImplicit false

namespace ApiTypes

namespace Rule

open Text (AllBlank IsWord Padded Trimmed)

/-! ## The text of an annotation -/

/-- An annotation as it is written: its name, and the text of its arguments without the blanks
around it. -/
inductive AnnotationText : List Char → List Char → List Char → Prop
  /-- The name alone. -/
  | bare {name body : List Char} (hname : isClassName name = true) (h : Padded name body) :
      AnnotationText body name []
  /-- The name, and the arguments between parentheses on one line. -/
  | applied {name left inner raw after : List Char} (hname : isClassName name = true)
      (hleft : Padded name left) (hraw : Padded inner raw) (hinner : Trimmed inner)
      (hline : '\n' ∉ raw) (hafter : AllBlank after) :
      AnnotationText (left ++ '(' :: (raw ++ ')' :: after)) name inner

variable {text body name inner : List Char} {IsName IsOther : List Char → Prop}

/-- What is cut as an annotation is written as one. -/
theorem annotationText_of_splitAnnotation? (h : splitAnnotation? body = some (name, inner)) :
    AnnotationText body name inner := by
  unfold splitAnnotation? at h
  simp only at h
  have hpadded := Text.padded_trim body
  generalize Text.trim body = trimmed at h hpadded
  -- From here on the name and what follows it take the place of the trimmed text.
  have hsplit := List.takeWhile_append_dropWhile (p := isClassPart) (l := trimmed)
  generalize trimmed.takeWhile isClassPart = found at h hsplit
  generalize trimmed.dropWhile isClassPart = rest at h hsplit
  subst hsplit
  obtain ⟨blanks, hblanks, hrest⟩ := Text.exists_trimStart rest
  split at h
  · cases h
  · rename_i hname
    have hfound : isClassName found = true := by simpa using hname
    split at h
    · rename_i hnil
      cases h
      rw [hnil, List.append_nil] at hrest
      subst hrest
      exact .bare hfound ((Text.padded_append name hblanks).trans hpadded)
    · rename_i more hmore
      split at h
      · rename_i hends
        cases h
        rw [Bool.and_eq_true, beq_iff_eq, Bool.not_eq_true', List.contains_eq_mem,
          decide_eq_false_iff_not] at hends
        obtain ⟨before, after, hbefore, hafter, rfl⟩ := hpadded
        have hparens := List.dropLast_append_getLast? ')' hends.1
        have hcut : before ++ (name ++ rest ++ after)
            = (before ++ (name ++ blanks)) ++ '(' :: (more.dropLast ++ ')' :: after) := by
          rw [hrest, hmore]
          conv_lhs => rw [← hparens]
          simp
        rw [hcut]
        exact .applied hfound ⟨before, blanks, hbefore, hblanks, rfl⟩
          (Text.padded_trim more.dropLast) (Text.trimmed_trim more.dropLast) hends.2 hafter
      · cases h
    · cases h

/-- A name alone is cut as one. -/
theorem splitAnnotation?_of_bare (hname : isClassName name = true) (h : Padded name body) :
    splitAnnotation? body = some (name, []) := by
  have htrim : Text.trim body = name := Text.trim_eq_iff.2 ⟨h, (isWord_of_isClassName hname).trimmed⟩
  have htake := List.takeWhile_eq_self_iff.2 (isClassPart_of_isClassName hname)
  have hdrop := List.dropWhile_eq_nil_iff.2 (isClassPart_of_isClassName hname)
  simp [splitAnnotation?, htrim, htake, hdrop, hname, Text.trimStart]

/-- A name with arguments between parentheses is cut at the parentheses. -/
theorem splitAnnotation?_of_applied {left raw after : List Char}
    (hname : isClassName name = true) (hleft : Padded name left) (hraw : Padded inner raw)
    (hinner : Trimmed inner) (hline : '\n' ∉ raw) (hafter : AllBlank after) :
    splitAnnotation? (left ++ '(' :: (raw ++ ')' :: after)) = some (name, inner) := by
  obtain ⟨before, gap, hbefore, hgap, rfl⟩ := hleft
  have htrim : Text.trim (before ++ (name ++ gap) ++ '(' :: (raw ++ ')' :: after))
      = name ++ (gap ++ '(' :: (raw ++ [')'])) := by
    have hclose : Trimmed [')'] := .of_forall (by simp [Text.isBlank])
    have hword := isWord_of_isClassName hname
    have hends := hword.trimmed.append (gap ++ '(' :: raw) hword.ne_nil hclose (by simp)
    rw [Text.trim_eq_iff]
    exact ⟨⟨before, after, hbefore, hafter, by simp⟩, by simpa using hends⟩
  have hstop : ∀ c, (gap ++ '(' :: (raw ++ [')'])).head? = some c → isClassPart c = false := by
    intro c hc
    cases gap with
    | nil =>
        cases hc
        rfl
    | cons d gap =>
        cases hc
        -- No name of a class goes on with a blank.
        by_contra hpart
        have hblank := (plain_of_isClassPart (by simpa using hpart)).isBlank
        rw [hgap c (by simp)] at hblank
        cases hblank
  obtain ⟨htake, hdrop⟩ :=
    Text.takeWhile_append_of_head (isClassPart_of_isClassName hname) hstop
  have hopen : Text.trimStart (gap ++ '(' :: (raw ++ [')'])) = '(' :: (raw ++ [')']) := by
    rw [Text.trimStart_of_isBlank hgap]
    rfl
  unfold splitAnnotation?
  rw [htrim]
  simp [htake, hdrop, hopen, hname, hline, Text.trim_eq_iff.2 ⟨hraw, hinner⟩]

/-- What is cut as an annotation is what is written as one. -/
theorem splitAnnotation?_eq_some_iff :
    splitAnnotation? body = some (name, inner) ↔ AnnotationText body name inner := by
  constructor
  · exact annotationText_of_splitAnnotation?
  · intro h
    cases h with
    | bare hname h => exact splitAnnotation?_of_bare hname h
    | applied hname hleft hraw hinner hline hafter =>
        exact splitAnnotation?_of_applied hname hleft hraw hinner hline hafter

theorem AnnotationText.trimmed (h : AnnotationText body name inner) : Trimmed inner := by
  cases h with
  | bare hname h => exact .of_forall (by simp)
  | applied hname hleft hraw hinner hline hafter => exact hinner

theorem AnnotationText.lineEnd_notMem (h : AnnotationText body name inner) : '\n' ∉ inner := by
  cases h with
  | bare hname h => simp
  | applied hname hleft hraw hinner hline hafter => exact fun hmem => hline (hraw.subset hmem)

/-- What is read as an annotation is a name with arguments, as the grammar says. -/
theorem readAnnotation_eq_ok_iff {line : String} {a : Annotation} :
    readAnnotation body line = .ok a ↔ ∃ name inner ps, AnnotationText body name inner
      ∧ ArgumentText LooseName inner ps ∧ a = ⟨String.ofList name, .ofList ps⟩ := by
  constructor
  · intro h
    unfold readAnnotation at h
    split at h
    · cases h
    · rename_i name inner hcut
      have htext := splitAnnotation?_eq_some_iff.1 hcut
      split at h
      · rename_i hempty
        cases h
        cases List.isEmpty_iff.1 hempty
        exact ⟨name, [], [], htext, .empty, rfl⟩
      · simp only at h
        split at h
        · cases h
        · rename_i arguments hread
          cases h
          obtain ⟨ps, hps, rfl⟩ := readArguments_eq_ok_iff.1 hread
          exact ⟨name, inner, ps, htext,
            argumentText_of_reads htext.trimmed htext.lineEnd_notMem hps, rfl⟩
  · rintro ⟨name, inner, ps, htext, hargs, rfl⟩
    unfold readAnnotation
    rw [splitAnnotation?_eq_some_iff.2 htext]
    by_cases hempty : inner = []
    · subst hempty
      rw [hargs.eq_nil]
      rfl
    · have hread : readArguments line (splitArguments .outside inner).length .empty
          (splitArguments .outside inner) = .ok (OrderedMap.ofList ps) :=
        readArguments_eq_ok_iff.2 ⟨ps, hargs.reads hempty, rfl⟩
      simp only [List.isEmpty_iff, hempty, if_false, hread]

/-! ## Whole rules -/

/-- The text of a rule that adds an annotation, and the rule. -/
inductive AnnotationLine (IsName : List Char → Prop) : List Char → Rule → Prop
  /-- A source, an at sign, the name of an annotation, and its arguments. -/
  | mk {text body name inner : List Char} {source : RuleSource} {ps : List (String × Argument)}
      (hsource : IsSource text source) (hbody : AnnotationText body name inner)
      (hargs : ArgumentText IsName inner ps) :
      AnnotationLine IsName (text ++ '@' :: body)
        { kind := .annotate, source, annotation := some ⟨String.ofList name, .ofList ps⟩ }

variable {line : String} {rule : Rule}

/-- A target does not make another kind of a rule. -/
theorem kind_of_withTarget {found : Rule} (h : rule.withTarget body line = .ok found) :
    found.kind = rule.kind := by
  unfold withTarget at h
  split at h
  · cases h
    rfl
  · cases h

/-- **The rules with annotations** are those whose texts are made of a source, an at sign and an
annotation, with whatever is taken for the names of its arguments. -/
theorem parseType_annotate_iff : parseType line = .ok rule ∧ rule.kind = .annotate
    ↔ AnnotationLine LooseName line.toList rule := by
  constructor
  · rintro ⟨h, hkind⟩
    unfold parseType at h
    split at h
    · cases h
    · rename_i text separator body hcut
      split at h
      · cases h
      · rename_i source hsource
        obtain ⟨hnone, hline⟩ := split?_eq_some_iff.1 hcut
        rw [hline]
        cases separator with
        | arrow =>
            rw [kind_of_withTarget h] at hkind
            cases hkind
        | atSign =>
            simp only at h
            split at h
            · cases h
            · rename_i annotation hread
              cases h
              obtain ⟨name, inner, ps, hbody, hargs, rfl⟩ := readAnnotation_eq_ok_iff.1 hread
              exact .mk (isSource_iff.2 ⟨hnone, hsource⟩) hbody hargs
  · intro h
    generalize hline : line.toList = whole at h
    cases h with
    | @mk text body name inner source ps hsource hbody hargs =>
        obtain ⟨hnone, hfound⟩ := isSource_iff.1 hsource
        have hcut := split?_append_of_none hnone .atSign body
        have hread : readAnnotation body line = .ok ⟨String.ofList name, .ofList ps⟩ :=
          readAnnotation_eq_ok_iff.2 ⟨name, inner, ps, hbody, hargs, rfl⟩
        change split? (text ++ '@' :: body) = _ at hcut
        rw [parseType, hline]
        simp only [hcut, hfound, hread]
        exact ⟨trivial, trivial⟩

theorem AnnotationLine.imp (h : AnnotationLine IsName text rule)
    (himp : ∀ name, IsName name → IsOther name) : AnnotationLine IsOther text rule := by
  cases h with
  | mk hsource hbody hargs => exact .mk hsource hbody (hargs.imp fun p _ => himp p.1.toList)

/-! ## Writing arguments -/

/-- A name and a literal, as they are written, and an argument that they give. -/
structure Writes (IsName : List Char → Prop) (pair : String × String) (p : String × Argument) :
    Prop where
  /-- The name is one. -/
  isName : IsName pair.1.toList
  /-- The argument has this name. -/
  name_eq : p.1 = pair.1
  /-- The literal stands for the argument. -/
  literal : Literal pair.2.toList p.2

/-- An assignment with a blank on either side of the equals sign. -/
def assignment (pair : String × String) : String := pair.1 ++ " = " ++ pair.2

theorem toList_assignment (pair : String × String) :
    (assignment pair).toList = pair.1.toList ++ ([' ', '=', ' '] ++ pair.2.toList) := by
  rw [assignment, String.toList_append, String.toList_append, List.append_assoc]
  rfl

/-- Texts with a comma and a blank between them. -/
theorem toList_intercalate_cons (first : String) {rest : List String} (h : rest ≠ []) :
    (", ".intercalate (first :: rest)).toList
      = first.toList ++ ',' :: ' ' :: (", ".intercalate rest).toList := by
  obtain ⟨next, more, rfl⟩ := List.exists_cons_of_ne_nil h
  rw [String.intercalate_cons_cons, String.append_assoc, String.toList_append,
    String.toList_append]
  rfl

variable {pair : String × String} {p : String × Argument} {pairs : List (String × String)}
  {ps : List (String × Argument)}

theorem Writes.assigns (h : Writes IsName pair p) :
    Assigns IsName (assignment pair).toList p := by
  have hblank : AllBlank [' '] := Text.allBlank_singleton rfl
  obtain ⟨n, a⟩ := p
  cases h.name_eq
  have hleft := Text.padded_append pair.1.toList hblank
  have hright := Text.padded_prepend hblank pair.2.toList
  have hassigns := Assigns.mk h.isName hleft h.literal hright
  rw [String.ofList_toList] at hassigns
  simpa [toList_assignment] using hassigns

/-- A blank before assignments makes no difference. -/
theorem Arguments.cons_blank (h : Arguments IsName text ps) : Arguments IsName (' ' :: text) ps := by
  have hone : ∀ {part p}, Assigns IsName part p → Assigns IsName (' ' :: part) p := by
    rintro part p ⟨hname, ⟨before, after, hbefore, hafter, rfl⟩, hvalue, hright⟩
    have hblank : AllBlank (' ' :: before) := (Text.allBlank_singleton rfl).append hbefore
    exact .mk hname ⟨' ' :: before, after, hblank, hafter, rfl⟩ hvalue hright
  cases h with
  | single h => exact .single (hone h)
  | more h hrest => exact .more (hone h) hrest

/-- Assignments that are written one after the other are read as they are written. -/
theorem arguments_intercalate (h : List.Forall₂ (Writes IsName) pairs ps) (hne : pairs ≠ []) :
    Arguments IsName (", ".intercalate (pairs.map assignment)).toList ps := by
  induction h with
  | nil => exact absurd rfl hne
  | @cons pair p pairs ps hpair hrest ih =>
      by_cases hpairs : pairs = []
      · subst hpairs
        cases hrest
        rw [List.map_singleton, String.intercalate_singleton]
        exact .single hpair.assigns
      · rw [List.map_cons, toList_intercalate_cons _ (by simpa using hpairs)]
        exact .more hpair.assigns (ih hpairs).cons_blank

theorem Writes.trimmed (h : Writes IsWord pair p) : Trimmed (assignment pair).toList := by
  rw [toList_assignment]
  exact h.isName.trimmed.append [' ', '=', ' '] h.isName.ne_nil h.literal.atom.trimmed
    h.literal.atom.ne_nil

theorem trimmed_intercalate (h : List.Forall₂ (Writes IsWord) pairs ps) (hne : pairs ≠ []) :
    Trimmed (", ".intercalate (pairs.map assignment)).toList := by
  induction h with
  | nil => exact absurd rfl hne
  | @cons pair p pairs ps hpair hrest ih =>
      by_cases hpairs : pairs = []
      · subst hpairs
        rw [List.map_singleton, String.intercalate_singleton]
        exact hpair.trimmed
      · have hmore := (arguments_intercalate hrest hpairs).ne_nil
        rw [List.map_cons, toList_intercalate_cons _ (by simpa using hpairs)]
        exact hpair.trimmed.append [',', ' '] hpair.assigns.ne_nil (ih hpairs) hmore

theorem Writes.lineEnd_notMem (h : Writes IsWord pair p) : '\n' ∉ (assignment pair).toList := by
  have hname : '\n' ∉ pair.1.toList := (Atom.word h.isName).lineEnd_notMem
  have hvalue := h.literal.atom.lineEnd_notMem
  rw [toList_assignment]
  simp [hname, hvalue]

theorem lineEnd_notMem_intercalate (h : List.Forall₂ (Writes IsWord) pairs ps) :
    '\n' ∉ (", ".intercalate (pairs.map assignment)).toList := by
  induction h with
  | nil => simp
  | @cons pair p pairs ps hpair hrest ih =>
      by_cases hpairs : pairs = []
      · subst hpairs
        rw [List.map_singleton, String.intercalate_singleton]
        exact hpair.lineEnd_notMem
      · rw [List.map_cons, toList_intercalate_cons _ (by simpa using hpairs)]
        rw [List.mem_append, List.mem_cons, List.mem_cons, not_or, not_or, not_or]
        exact ⟨hpair.lineEnd_notMem, by decide, by decide, ih⟩

/-- A rule that is written with arguments between parentheses is read with these arguments. -/
theorem parseType_of_argumentText {source name inner : String} {found : RuleSource}
    (hsource : IsSource source.toList found) (hname : isClassName name.toList = true)
    (hargs : ArgumentText IsWord inner.toList ps) (htrimmed : Trimmed inner.toList)
    (hline : '\n' ∉ inner.toList) :
    parseType (source ++ " @ " ++ name ++ "(" ++ inner ++ ")")
      = .ok { kind := .annotate, source := found, annotation := some ⟨name, .ofList ps⟩ } := by
  have hblank : AllBlank [' '] := Text.allBlank_singleton rfl
  have hspaced : IsSource (source.toList ++ [' ']) found := by
    rw [isSource_iff] at hsource ⊢
    exact ⟨split?_append_blank hsource.1, (source?_append_blank _).trans hsource.2⟩
  have hbody : AnnotationText (' ' :: name.toList ++ '(' :: (inner.toList ++ ')' :: []))
      name.toList inner.toList :=
    .applied hname (Text.padded_prepend hblank name.toList) (Padded.refl inner.toList) htrimmed hline
      Text.allBlank_nil
  have hwhole := AnnotationLine.mk hspaced hbody (hargs.imp fun p _ => looseName_of_isWord)
  have htext : (source ++ " @ " ++ name ++ "(" ++ inner ++ ")").toList = source.toList ++ [' ']
      ++ '@' :: (' ' :: name.toList ++ '(' :: (inner.toList ++ ')' :: [])) := by
    simp [String.toList_append]
  rw [← htext, String.ofList_toList] at hwhole
  exact (parseType_annotate_iff.2 hwhole).1

/-- **Arguments are read as they are written.** Assignments of literals to names give arguments with
these names, each name where it came first and with what it was given last; and a literal alone
gives the argument `value`. Every identifier is a word, so it is a name here, and a string can have
in it whatever rules, arguments and assignments are cut at. -/
theorem parseType_assignments {source name : String} {found : RuleSource}
    (hsource : IsSource source.toList found) (hname : isClassName name.toList = true) :
    (∀ pairs ps, pairs ≠ [] → List.Forall₂ (Writes IsWord) pairs ps →
      ∃ arguments : OrderedMap Argument,
        parseType (source ++ " @ " ++ name ++ "(" ++ ", ".intercalate (pairs.map assignment) ++ ")")
          = .ok { kind := .annotate, source := found, annotation := some ⟨name, arguments⟩ }
        ∧ arguments.keys = (pairs.map Prod.fst).eraseDups
        ∧ ∀ n, arguments.get? n = findValue? n ps.reverse)
      ∧ ∀ (value : String) a, Literal value.toList a →
        parseType (source ++ " @ " ++ name ++ "(" ++ value ++ ")")
          = .ok { kind := .annotate, source := found,
                  annotation := some ⟨name, .ofList [("value", a)]⟩ } := by
  constructor
  · intro pairs ps hne h
    have hargs := ArgumentText.named (arguments_intercalate h hne)
    have hnames : ps.map Prod.fst = pairs.map Prod.fst := by
      clear hargs hne
      induction h with
      | nil => rfl
      | cons hpair hrest ih => rw [List.map_cons, List.map_cons, hpair.name_eq, ih]
    refine ⟨.ofList ps, ?_, ?_, fun n => OrderedMap.get?_ofList ps n⟩
    · exact parseType_of_argumentText hsource hname hargs (trimmed_intercalate h hne)
        (lineEnd_notMem_intercalate h)
    · rw [OrderedMap.keys_ofList, hnames]
  · intro value a h
    exact parseType_of_argumentText hsource hname (.alone h) h.atom.trimmed h.atom.lineEnd_notMem

/-- A source that ends in an equals sign, a name that comes twice, and a string with everything in it
that rules and arguments are cut at. -/
theorem parseType_assignments_text :
    let source := "string:uuid="
    let found : RuleSource := ⟨"string", some "uuid="⟩
    let text := "\x22a, b = c @ d => (e) \x5c\x22 \x5c\x5c\x22"
    let pairs := [("text", "5"), ("kind", "io.Kind.class"), ("n", "-1.5"), ("text", text)]
    IsSource source.toList found ∧ isClassName "io.Ann".toList = true
      ∧ (∃ arguments : OrderedMap Argument,
        parseType (source ++ " @ " ++ "io.Ann" ++ "(" ++ ", ".intercalate (pairs.map assignment)
            ++ ")")
          = .ok { kind := .annotate, source := found, annotation := some ⟨"io.Ann", arguments⟩ }
        ∧ arguments.keys = ["text", "kind", "n"]
        ∧ arguments.get? "text" = some ⟨text, none⟩
        ∧ arguments.get? "kind" = some ⟨"Kind.class", some "io.Kind"⟩)
      ∧ parseType (source ++ " @ " ++ "io.Ann" ++ "(" ++ text ++ ")")
        = .ok { kind := .annotate, source := found,
                annotation := some ⟨"io.Ann", .ofList [("value", ⟨text, none⟩)]⟩ } := by
  intro source found text pairs
  have hsource : IsSource source.toList found :=
    isSource_iff.2 ⟨by decide +kernel, by decide +kernel⟩
  have hname : isClassName "io.Ann".toList = true := by decide
  have hword (name : String) (h : name.toList ≠ [] ∧ name.toList.all isClassPart = true) :
      IsWord name.toList :=
    ⟨h.1, fun c hc => plain_of_isClassPart (List.all_eq_true.1 h.2 c hc)⟩
  have hliteral (value : String) (a : Argument)
      (h : argument? value.toList = some a ∧ '\n' ∉ value.toList) : Literal value.toList a :=
    argument?_eq_some_iff.1 h
  have htext : Literal text.toList ⟨text, none⟩ := hliteral _ _ (by decide +kernel)
  have hwrites : List.Forall₂ (Writes IsWord) pairs [("text", ⟨"5", none⟩),
      ("kind", ⟨"Kind.class", some "io.Kind"⟩), ("n", ⟨"-1.5", none⟩), ("text", ⟨text, none⟩)] :=
    .cons ⟨hword _ (by decide), rfl, hliteral _ _ (by decide +kernel)⟩
      (.cons ⟨hword _ (by decide), rfl, hliteral _ _ (by decide +kernel)⟩
        (.cons ⟨hword _ (by decide), rfl, hliteral _ _ (by decide +kernel)⟩
          (.cons ⟨hword _ (by decide), rfl, htext⟩ .nil)))
  refine ⟨hsource, hname, ?_, (parseType_assignments hsource hname).2 text _ htext⟩
  obtain ⟨arguments, hread, hkeys, hget⟩ :=
    (parseType_assignments hsource hname).1 pairs _ (by simp [pairs]) hwrites
  exact ⟨arguments, hread, hkeys.trans (by decide), (hget "text").trans rfl,
    (hget "kind").trans (by decide)⟩

end Rule

end ApiTypes
