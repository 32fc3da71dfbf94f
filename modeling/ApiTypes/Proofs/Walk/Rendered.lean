import ApiTypes.Proofs.Mapping.Inlined
import ApiTypes.Proofs.Mapping.Spelled
import ApiTypes.Proofs.Store.Imports
import ApiTypes.Proofs.Walk.Results

/-!
# How types of rules are written

The type that a rule gives stands in the store in pieces: its own slot, and a slot for each type
argument. `TypeStore.Holds` says that a slot and those below it stand for a target. A slot that does
is written as the target is spelled, and its imports are the qualified names in the target that
have a package. With what is known of the spelling, the type of a rule is written as the text of
its target (`Resolver.buildFromRule_of_parseType`).
-/

set_option autoImplicit false

namespace ApiTypes

open Resolver (mappedType)

namespace TypeStore

variable {s s' : TypeStore}

/-! ## Slots that stand for a target -/

mutual

/-- A slot stands for a type argument, and earlier slots for those in it. -/
inductive Holds (s : TypeStore) : Nat → Target → Prop where
  /-- The slot has the type of the target with these slots as type arguments. -/
  | intro {id : Nat} {name : String} {args : List Target} {ids : List TypeId}
      (get : s.get? id = some (mappedType ⟨name, args⟩ ids false {} false))
      (before : ∀ i ∈ ids, (i : Nat) < id) (holds : HoldsAll s ids args) : Holds s id ⟨name, args⟩

/-- Slots stand for type arguments. -/
inductive HoldsAll (s : TypeStore) : List TypeId → List Target → Prop where
  /-- There are none. -/
  | nil : HoldsAll s [] []
  /-- The first does, and the others do. -/
  | cons {id : TypeId} {ids : List TypeId} {t : Target} {rest : List Target}
      (first : Holds s id t) (others : HoldsAll s ids rest) : HoldsAll s (id :: ids) (t :: rest)

end

mutual

/-- Slots go on standing for a target when the store grows. -/
theorem Holds.grow (hgrows : Grows s s') : ∀ {id : Nat} (t : Target), s.Holds id t → s'.Holds id t
  | _, ⟨_, args⟩, .intro get before holds =>
      .intro (hgrows.get?_some get) before (HoldsAll.grow hgrows args holds)

theorem HoldsAll.grow (hgrows : Grows s s') :
    ∀ {ids : List TypeId} (ts : List Target), s.HoldsAll ids ts → s'.HoldsAll ids ts
  | _, [], .nil => .nil
  | _, t :: rest, .cons first others =>
      .cons (Holds.grow hgrows t first) (HoldsAll.grow hgrows rest others)

end

theorem HoldsAll.lt_size {ids : List TypeId} {ts : List Target} (h : s.HoldsAll ids ts) :
    ∀ i ∈ ids, (i : Nat) < s.size := by
  induction ids generalizing ts with
  | nil => nofun
  | cons id ids ih =>
      obtain _ | ⟨first, others⟩ := h
      intro i hi
      rcases List.mem_cons.1 hi with rfl | hi
      · obtain ⟨get, -, -⟩ := first
        exact s.lt_size_of_get? get
      · exact ih others i hi

mutual

/-- The slot of a type argument that was added stands for it. -/
theorem holds_addTarget (s : TypeStore) : ∀ t : Target,
    (Resolver.addTarget s t).2.Holds (Resolver.addTarget s t).1 t
      ∧ Grows s (Resolver.addTarget s t).2
  | ⟨name, args⟩ => by
      obtain ⟨hargs, hgrows⟩ := holdsAll_addTargets s args
      rw [Resolver.addTarget]
      have hadd : Grows (Resolver.addTargets s args).2 _ :=
        (Grows.refl _).add (mappedType ⟨name, args⟩ (Resolver.addTargets s args).1 false {} false)
      refine ⟨.intro ?_ ?_ (hargs.grow hadd args), hgrows.trans hadd⟩
      · exact (get?_add _ _ _).trans (if_pos rfl)
      · exact hargs.lt_size

/-- So do those of type arguments that were added one by one. -/
theorem holdsAll_addTargets (s : TypeStore) : ∀ ts : List Target,
    (Resolver.addTargets s ts).2.HoldsAll (Resolver.addTargets s ts).1 ts
      ∧ Grows s (Resolver.addTargets s ts).2
  | [] => ⟨.nil, .refl s⟩
  | t :: rest => by
      obtain ⟨hfirst, hgrows⟩ := holds_addTarget s t
      obtain ⟨hothers, hgrows'⟩ := holdsAll_addTargets (Resolver.addTarget s t).2 rest
      rw [Resolver.addTargets]
      exact ⟨.cons (hfirst.grow hgrows' t) hothers, hgrows.trans hgrows'⟩

end

/-! ## How they are written -/

theorem textWithin_mapped {depth id : Nat} {target : Target} {ids : List TypeId} {isArray : Bool}
    {c : Constraints} {d : Bool} {form : NameForm}
    (hget : s.get? id = some (mappedType target ids isArray c d))
    (hargs : ids.map (s.textWithin depth .generated) = Target.spelledAll target.args) :
    s.textWithin (depth + 1) form id = target.spelled ++ (if isArray then "[]" else "") := by
  obtain ⟨name, args⟩ := target
  have hempty : ids.isEmpty = args.isEmpty := by
    have hlength := congrArg List.isEmpty hargs
    rw [List.isEmpty_map] at hlength
    rw [hlength]
    cases args with
    | nil => rfl
    | cons t rest => rfl
  simp only [TypeStore.textWithin, hget, mappedType, Target.spelled, hargs, hempty]
  rfl

mutual

theorem Holds.textWithin {depth : Nat} : ∀ {id : Nat} (t : Target), s.Holds id t → id < depth →
    s.textWithin depth .generated id = t.spelled
  | id, ⟨name, args⟩, .intro get before holds, hlt => by
      -- The type arguments stand in earlier slots, so one less is deep enough for them.
      obtain ⟨below, rfl⟩ := Nat.exists_eq_add_one_of_ne_zero (Nat.ne_zero_of_lt hlt)
      have hargs := holds.textWithin args fun i hi =>
        Nat.lt_of_lt_of_le (before i hi) (Nat.le_of_lt_succ hlt)
      exact (textWithin_mapped get hargs).trans (String.append_empty ..)

theorem HoldsAll.textWithin {depth : Nat} : ∀ {ids : List TypeId} (ts : List Target),
    s.HoldsAll ids ts → (∀ i ∈ ids, (i : Nat) < depth) →
      ids.map (s.textWithin depth .generated) = Target.spelledAll ts
  | _, [], .nil, _ => rfl
  | _, t :: rest, .cons first others, hlt => by
      rw [List.map_cons, first.textWithin t (hlt _ List.mem_cons_self),
        others.textWithin rest fun i hi => hlt i (List.mem_cons_of_mem _ hi), Target.spelledAll]

end

/-! ## What they import -/

theorem needs_mappedType_iff {target : Target} {ids : List TypeId} {isArray : Bool}
    {c : Constraints} {d : Bool} {q : String} :
    (mappedType target ids isArray c d).Needs q
      ↔ q = target.qualifiedName ∧ packageOf q ≠ "" := by
  constructor
  · intro h
    cases h with
    | mapped _ _ _ _ _ hpackage =>
        have hname := packageOf_append_simpleName hpackage
        exact ⟨hname, hname.symm ▸ hpackage⟩
  · rintro ⟨rfl, hpackage⟩
    have h := ModelType.Needs.mapped target.name ids isArray c d hpackage
    rwa [Target.name, packageOf_append_simpleName hpackage] at h

theorem imports_mapped {id : Nat} {target : Target} {ids : List TypeId} {isArray : Bool}
    {c : Constraints} {d : Bool} {q : String}
    (hget : s.get? id = some (mappedType target ids isArray c d))
    (hargs : (∃ i ∈ ids, q ∈ s.imports i) ↔ q ∈ Target.namesAll target.args ∧ packageOf q ≠ "") :
    q ∈ s.imports id ↔ q ∈ target.names ∧ packageOf q ≠ "" := by
  obtain ⟨name, args⟩ := target
  rw [mem_imports_iff hget, needs_mappedType_iff]
  show _ ∨ (∃ i ∈ ids, q ∈ s.imports i) ↔ _
  rw [hargs, Target.names, List.mem_cons, or_and_right]

mutual

/-- What a slot imports are the qualified names with a package in what it stands for. -/
theorem Holds.imports {q : String} : ∀ {id : Nat} (t : Target), s.Holds id t →
    (q ∈ s.imports id ↔ q ∈ t.names ∧ packageOf q ≠ "")
  | _, ⟨_, args⟩, .intro get _ holds => imports_mapped get (HoldsAll.imports args holds)

theorem HoldsAll.imports {q : String} : ∀ {ids : List TypeId} (ts : List Target),
    s.HoldsAll ids ts →
      ((∃ i ∈ ids, q ∈ s.imports i) ↔ q ∈ Target.namesAll ts ∧ packageOf q ≠ "")
  | _, [], .nil => by simp [Target.namesAll]
  | _, t :: rest, .cons first others => by
      rw [List.exists_mem_cons_iff, first.imports t, others.imports rest, Target.namesAll,
        List.mem_append, or_and_right]

end

end TypeStore

/-! ## The type of a rule -/

/-- A rule on one line with an arrow gives a type, and its target was read after the arrow. -/
theorem Rule.exists_of_parseType {text : String} {source target : List Char} {rule : Rule}
    (hcut : split? text.toList = some (source, .arrow, target)) (h : parseType text = .ok rule) :
    ∃ t, TypeExpr.parse target = .ok t
      ∧ rule = withExpr { kind := .type, source := rule.source } t := by
  rw [parseType, hcut] at h
  simp only at h
  split at h
  · cases h
  · unfold withTarget at h
    split at h
    · rename_i t hparse
      cases h
      exact ⟨t, hparse, rfl⟩
    · cases h

/-- How a slot is written that stands for a type expression, in the terms of the text that it was
read from. -/
structure TypeStore.Renders (s : TypeStore) (id : Nat) (package : String) (text : List Char)
    (t : TypeExpr) : Prop where
  /-- The slot is written as the target is spelled, whatever its type arguments are. -/
  typeName_eq : s.typeName id = (t.toTarget package).spelled ++ (if t.isArray then "[]" else "")
  /-- This is the text itself, token by token, with the root package put in, names without their
  package and a blank after each comma, exactly if no array among the type arguments has type
  arguments. -/
  typeName_eq_spelledText_iff :
    s.typeName id = TypeExpr.spelledText package text ↔ t.NoGenericArray
  /-- The imports are the qualified names in the target that have a package, whatever its type
  arguments are. -/
  mem_imports_iff : ∀ q, q ∈ s.imports id ↔ q ∈ (t.toTarget package).names ∧ packageOf q ≠ ""
  /-- These are the names in the text, if no array among the type arguments has a package. -/
  mem_imports_iff_namesOfText : t.NoQualifiedArray package →
    ∀ q, q ∈ s.imports id ↔ q ∈ TypeExpr.namesOfText package text ∧ packageOf q ≠ ""
  /-- In a root package without brackets, no import has brackets exactly if no array among the type
  arguments has a package. -/
  noQualifiedArray_iff : ']' ∉ package.toList →
    (t.NoQualifiedArray package ↔ ∀ q ∈ s.imports id, ']' ∉ q.toList)

/-- A slot stands for the target of a rule if it has its type and earlier slots stand for its type
arguments. -/
theorem TypeStore.HoldsAll.renders {s : TypeStore} {id : Nat} {ids : List TypeId} {package : String}
    {text : List Char} {t : TypeExpr} {c : Constraints} {d : Bool}
    (hparse : TypeExpr.parse text = .ok t)
    (hget : s.get? id = some (mappedType (t.toTarget package) ids t.isArray c d))
    (hholds : s.HoldsAll ids (t.toTarget package).args) : s.Renders id package text t := by
  have htext : s.typeName id = (t.toTarget package).spelled ++ (if t.isArray then "[]" else "") :=
    textWithin_mapped hget (hholds.textWithin _ hholds.lt_size)
  have himports : ∀ q, q ∈ s.imports id ↔ q ∈ (t.toTarget package).names ∧ packageOf q ≠ "" :=
    fun q => imports_mapped hget (hholds.imports _)
  refine ⟨htext, htext ▸ TypeExpr.spelled_toTarget_iff hparse, himports, fun h q => ?_,
    fun hpackage => ?_⟩
  · rw [himports]
    exact and_congr_left fun hq => TypeExpr.mem_names_toTarget_iff hparse h hq
  · rw [TypeExpr.noQualifiedArray_iff hparse hpackage]
    exact forall_congr' fun q => by rw [himports, and_imp]

namespace Resolver

variable (r : Resolver) (recur : SchemaNode → String → Walk TypeId) (n : SchemaNode) (name : String)

/-- The types of a rule are added, unless the items of an array are taken for a type argument. The
last one stands for the target, and the others for the type arguments. -/
theorem exists_buildFromRule {rule : Rule} {target : Target}
    (htarget : r.ruleTarget rule = .ok target)
    (hitems : ¬ (rule.source.type = "array" ∧ n.type = some "array" ∧ target.args = []))
    (s : WalkState) :
    ∃ (id : Nat) (ids : List TypeId) (s' : WalkState),
      (r.buildFromRule recur n name rule).outcome s = (.ok id, s')
        ∧ s'.types.get? id = some (mappedType target ids rule.isArray n.constraints n.deprecated)
        ∧ s'.types.HoldsAll ids target.args := by
  have hholds := (TypeStore.holdsAll_addTargets s.types target.args).1
  generalize hadd : addTargets s.types target.args = added at hholds
  obtain ⟨ids, types⟩ := added
  let mapped := mappedType target ids rule.isArray n.constraints n.deprecated
  have hgrows : Grows types (types.add mapped).2 := (Grows.refl types).add mapped
  refine ⟨types.size, ids, { s with types := (types.add mapped).2 }, ?_, ?_,
    hholds.grow hgrows target.args⟩
  · rw [buildFromRule, htarget, Walk.outcome_bind_ok (Walk.outcome_ofExcept _ s),
      if_neg (by simpa using hitems), Walk.outcome_bind_ok (Walk.outcome_onTypes _ s), hadd]
    rfl
  · exact (TypeStore.get?_add types mapped types.size).trans (if_pos rfl)

/-- **The type of a rule is written as its target.** Whatever the root package is, the slot that a
rule with an arrow gives a schema is written as the text after the arrow and imports the names in it
(`TypeStore.Renders`), unless the rule is for arrays and takes their items for a type argument. -/
theorem buildFromRule_of_parseType {text : String} {source target : List Char} {rule : Rule}
    (hcut : Rule.split? text.toList = some (source, .arrow, target))
    (hrule : Rule.parseType text = .ok rule)
    (hitems : ¬ (rule.source.type = "array" ∧ n.type = some "array" ∧ rule.generics = []))
    (s : WalkState) :
    ∃ (t : TypeExpr) (id : Nat) (s' : WalkState), TypeExpr.parse target = .ok t
      ∧ (r.buildFromRule recur n name rule).outcome s = (.ok id, s')
      ∧ s'.types.Renders id r.options.packageName target t := by
  obtain ⟨t, hparse, hexpr⟩ := Rule.exists_of_parseType hcut hrule
  have htarget : r.ruleTarget rule = .ok (t.toTarget r.options.packageName) := by
    rw [ruleTarget, Target.ofRule?, hexpr]
    rfl
  have hargs : (t.toTarget r.options.packageName).args = [] → rule.generics = [] := by
    intro h
    have hempty := TypeExpr.isEmpty_ofTypeExprs r.options.packageName t.args
    rw [show Target.ofTypeExprs r.options.packageName t.args = [] from h] at hempty
    rw [hexpr]
    exact List.isEmpty_iff.1 hempty.symm
  obtain ⟨id, ids, s', hrun, hget, hholds⟩ := r.exists_buildFromRule recur n name htarget
    (fun h => hitems ⟨h.1, h.2.1, hargs h.2.2⟩) s
  have harray : rule.isArray = t.isArray := by
    rw [hexpr]
    rfl
  rw [harray] at hget
  exact ⟨t, id, s', hparse, hrun, hholds.renders hparse hget⟩

end Resolver

/-- An array with a text and an array of bytes as type arguments is written as it is in the rule.
An array of lists as a type argument is not: its brackets come before the type argument of the
lists, and they stand in its import. -/
theorem buildFromRule_of_parseType_wrapper :
    let build rule := ((Resolver.mk petDescription { packageName := "io.example" }).buildFromRule
      (fun _ _ => pure (0 : Nat)) default "Wrapped" rule).outcome {}
    (∃ rule id s',
      Rule.parseType "Wrapped => \x7bpackage-name\x7d.Wrapper<java.lang.String, byte[]>[]" = .ok rule
        ∧ build rule = (.ok id, s') ∧ s'.types.typeName id = "Wrapper<String, byte[]>[]"
        ∧ ∀ q, q ∈ s'.types.imports id ↔ q = "io.example.Wrapper" ∨ q = "java.lang.String")
    ∧ ∃ rule id s', Rule.parseType "Box => io.Box<java.util.List<java.lang.String>[]>" = .ok rule
        ∧ build rule = (.ok id, s') ∧ s'.types.typeName id = "Box<List[]<String>>"
        ∧ "java.util.List[]" ∈ s'.types.imports id := by
  intro build
  have hread : ∀ text source target, Rule.split? text.toList = some (source, .arrow, target) →
      (Rule.parseType text).toOption.map (·.source.type == "array") = some false →
      ∃ rule t id s', Rule.parseType text = .ok rule ∧ TypeExpr.parse target = .ok t
        ∧ build rule = (.ok id, s') ∧ s'.types.Renders id "io.example" target t := by
    intro text source target hcut hsource
    obtain ⟨rule, hrule, hname⟩ := exists_of_map_toOption hsource
    obtain ⟨t, id, s', hparse, hrun, hrenders⟩ := Resolver.buildFromRule_of_parseType
      (Resolver.mk petDescription { packageName := "io.example" }) (fun _ _ => pure (0 : Nat))
      default "Wrapped" hcut hrule (fun h => by simp [h.1] at hname) {}
    exact ⟨rule, t, id, s', hrule, hparse, hrun, hrenders⟩
  constructor
  · obtain ⟨rule, t, id, s', hrule, hparse, hrun, hrenders⟩ := hread
      "Wrapped => \x7bpackage-name\x7d.Wrapper<java.lang.String, byte[]>[]" "Wrapped ".toList
      " \x7bpackage-name\x7d.Wrapper<java.lang.String, byte[]>[]".toList
      (by decide +kernel) (by decide +kernel)
    have ht : TypeExpr.parse " \x7bpackage-name\x7d.Wrapper<java.lang.String, byte[]>[]".toList
        = .ok ⟨"\x7bpackage-name\x7d.Wrapper", true,
          [.ofName "java.lang.String", ⟨"byte", true, []⟩]⟩ := by decide +kernel
    cases Except.ok.inj (hparse.symm.trans ht)
    have htext := hrenders.typeName_eq_spelledText_iff.2 (by decide +kernel)
    have himports := hrenders.mem_imports_iff_namesOfText (by decide +kernel)
    have hnames : TypeExpr.namesOfText "io.example"
        " \x7bpackage-name\x7d.Wrapper<java.lang.String, byte[]>[]".toList
        = ["io.example.Wrapper", "java.lang.String", "byte"] := by decide +kernel
    have hqualified : packageOf "io.example.Wrapper" ≠ "" ∧ packageOf "java.lang.String" ≠ ""
        ∧ packageOf "byte" = "" := by decide +kernel
    refine ⟨rule, id, s', hrule, hrun, htext.trans (by decide +kernel), fun q => ?_⟩
    rw [himports, hnames]
    constructor
    · rintro ⟨hq, hpackage⟩
      simp only [List.mem_cons, List.not_mem_nil, or_false] at hq
      rcases hq with rfl | rfl | rfl
      · exact .inl rfl
      · exact .inr rfl
      · exact absurd hqualified.2.2 hpackage
    · rintro (rfl | rfl)
      · exact ⟨by simp, hqualified.1⟩
      · exact ⟨by simp, hqualified.2.1⟩
  · obtain ⟨rule, t, id, s', hrule, hparse, hrun, hrenders⟩ := hread
      "Box => io.Box<java.util.List<java.lang.String>[]>" "Box ".toList
      " io.Box<java.util.List<java.lang.String>[]>".toList (by decide +kernel) (by decide +kernel)
    have ht : TypeExpr.parse " io.Box<java.util.List<java.lang.String>[]>".toList
        = .ok ⟨"io.Box", false, [⟨"java.util.List", true, [.ofName "java.lang.String"]⟩]⟩ := by
      decide +kernel
    cases Except.ok.inj (hparse.symm.trans ht)
    exact ⟨rule, id, s', hrule, hrun, hrenders.typeName_eq.trans (by decide +kernel),
      (hrenders.mem_imports_iff _).2 (by decide +kernel)⟩

end ApiTypes
