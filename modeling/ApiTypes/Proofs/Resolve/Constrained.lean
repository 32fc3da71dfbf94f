import ApiTypes.Proofs.Mapping.Quoted
import ApiTypes.Proofs.Mapping.Spelled
import ApiTypes.Resolve.Bounds

/-!
# The annotations that constraints become

The annotations for constraints have four names, and at most one annotation has each of them, so
that a keyword can be told from the annotation of its name (`Constraints.annotationsNamed`). There
is one for a pattern exactly if there is a pattern and annotations are not left out, and its only
argument spells the pattern (`Constraints.annotationsNamed_pattern_spells`).
-/

set_option autoImplicit false

namespace ApiTypes

/-! ## Names of annotations from a package -/

/-- The package of a qualified name is not part of its simple name. -/
theorem simpleName_append {package word : String} (h : '.' ∉ word.toList) :
    simpleName (package ++ "." ++ word) = word := by
  have htext : (package ++ "." ++ word).toList = package.toList ++ '.' :: word.toList := by simp
  rw [simpleName, htext, splitQualified_append_cons h, String.ofList_toList]

/-- A list with at most one annotation is kept as a whole or not at all. -/
theorem filter_toList_name {found : Option Annotation} {word : String}
    (h : ∀ a ∈ found, a.name = word) (name : String) :
    found.toList.filter (·.name == name) = if word = name then found.toList else [] := by
  cases found with
  | none => simp
  | some a =>
      have hname : a.name = word := h a rfl
      by_cases hword : word = name
      · simp [hname, hword]
      · simp [hname, hword]

namespace Constraints

theorem name_of_annotationOfSize {package : String} {bounds : Option Nat × Option Nat}
    {a : Annotation} (h : a ∈ annotationOfSize? package bounds) : a.name = "Size" := by
  have hname : simpleName (package ++ "." ++ "Size") = "Size" := simpleName_append (by decide)
  have hplain : ({ typeName := package ++ ".Size" } : Annotation).name = "Size" := by
    rwa [String.append_assoc] at hname
  obtain ⟨least, greatest⟩ := bounds
  cases least with
  | none =>
      cases greatest with
      | none => cases h
      | some most =>
          cases h
          exact hplain
  | some few =>
      cases greatest with
      | none =>
          cases h
          exact hplain
      | some most =>
          cases h
          exact hplain

theorem name_of_annotationOfPattern (package pattern : String) :
    (annotationOfPattern package pattern).name = "Pattern" := by
  have hname : simpleName (package ++ "." ++ "Pattern") = "Pattern" :=
    simpleName_append (by decide)
  rwa [String.append_assoc] at hname

theorem name_of_annotationOfBound {name : String} (h : '.' ∉ name.toList) (package : String)
    (exclusive : Bool) (bound : Decimal.Binary64) :
    (annotationOfBound package name exclusive bound).name = name := by
  cases exclusive with
  | false => exact simpleName_append h
  | true => exact simpleName_append h

/-- The annotation of a bound that is written as a text. -/
def boundWritten (package name text : String) (exclusive : Bool) : Annotation where
  typeName := package ++ "." ++ name
  arguments := .ofList (("value", ⟨Text.literal text, none⟩)
    :: if exclusive then [("inclusive", ⟨"false", none⟩)] else [])

theorem annotationOfBound_eq (package name : String) (exclusive : Bool)
    (bound : Decimal.Binary64) :
    annotationOfBound package name exclusive bound
      = boundWritten package name (Decimal.positional bound) exclusive := by
  cases exclusive <;> rfl

@[simp] theorem get?_value_boundWritten (package name text : String) (exclusive : Bool) :
    (boundWritten package name text exclusive).arguments.get? "value"
      = some ⟨Text.literal text, none⟩ := by
  cases exclusive <;> rfl

@[simp] theorem get?_inclusive_boundWritten (package name text : String) (exclusive : Bool) :
    (boundWritten package name text exclusive).arguments.get? "inclusive"
      = if exclusive then some ⟨"false", none⟩ else none := by
  cases exclusive <;> rfl

/-! ## The annotation of a keyword -/

/-- The annotations of a name among those for constraints. -/
def annotationsNamed (c : Constraints) (validation : Validation) (name : String) :
    List Annotation :=
  (c.annotations validation).filter (·.name == name)

/-- The annotations from a package, name by name. -/
theorem filter_annotationsFrom (c : Constraints) (package name : String) :
    (c.annotationsFrom package).filter (·.name == name)
      = (if "Size" = name then (annotationOfSize? package c.sizeBounds).toList else [])
        ++ (if "Pattern" = name then (c.pattern.map (annotationOfPattern package)).toList else [])
        ++ (if "DecimalMin" = name then
            (c.minimum.map (annotationOfBound package "DecimalMin" c.exclusiveMinimum)).toList
          else [])
        ++ (if "DecimalMax" = name then
            (c.maximum.map (annotationOfBound package "DecimalMax" c.exclusiveMaximum)).toList
          else []) := by
  have hpattern : ∀ a ∈ c.pattern.map (annotationOfPattern package), a.name = "Pattern" := by
    intro a ha
    obtain ⟨pattern, -, rfl⟩ := Option.map_eq_some_iff.1 ha
    exact name_of_annotationOfPattern package pattern
  have hbound : ∀ (word : String) (_ : '.' ∉ word.toList) (exclusive : Bool)
      (bound : Option Decimal.Binary64),
      ∀ a ∈ bound.map (annotationOfBound package word exclusive), a.name = word := by
    intro word hword exclusive bound a ha
    obtain ⟨value, -, rfl⟩ := Option.map_eq_some_iff.1 ha
    exact name_of_annotationOfBound hword package exclusive value
  rw [annotationsFrom, List.filter_append, List.filter_append, List.filter_append,
    filter_toList_name (fun a ha => name_of_annotationOfSize ha), filter_toList_name hpattern,
    filter_toList_name (hbound "DecimalMin" (by decide) _ _),
    filter_toList_name (hbound "DecimalMax" (by decide) _ _)]

/-- The annotations of a name are those from the package of the flavour. -/
theorem annotationsNamed_eq {c : Constraints} {name : String}
    {annotationOf : String → Option Annotation}
    (h : ∀ package,
      (c.annotationsFrom package).filter (·.name == name) = (annotationOf package).toList)
    (validation : Validation) :
    c.annotationsNamed validation name = (validation.package?.bind annotationOf).toList := by
  rw [annotationsNamed, annotations]
  cases validation.package? with
  | none => rfl
  | some package => exact h package

theorem annotationsNamed_pattern (c : Constraints) (validation : Validation) :
    c.annotationsNamed validation "Pattern"
      = (validation.package?.bind fun package =>
          c.pattern.map (annotationOfPattern package)).toList := by
  apply annotationsNamed_eq
  intro package
  simp [filter_annotationsFrom]

theorem annotationsNamed_decimalMin (c : Constraints) (validation : Validation) :
    c.annotationsNamed validation "DecimalMin"
      = (validation.package?.bind fun package => c.minimum.map fun bound =>
          boundWritten package "DecimalMin" (Decimal.positional bound)
            c.exclusiveMinimum).toList := by
  apply annotationsNamed_eq
  intro package
  simp [filter_annotationsFrom, ← annotationOfBound_eq]

theorem annotationsNamed_decimalMax (c : Constraints) (validation : Validation) :
    c.annotationsNamed validation "DecimalMax"
      = (validation.package?.bind fun package => c.maximum.map fun bound =>
          boundWritten package "DecimalMax" (Decimal.positional bound)
            c.exclusiveMaximum).toList := by
  apply annotationsNamed_eq
  intro package
  simp [filter_annotationsFrom, ← annotationOfBound_eq]

/-- **The annotation of a pattern spells the pattern.** There is one exactly if there is a pattern
and annotations are not left out. Its only argument is the literal of the pattern: the backslashes
are doubled, then a backslash is put before each quote, and quotes are put around. The literal
spells the pattern, whatever it is, and no other pattern has this literal. -/
theorem annotationsNamed_pattern_spells :
    (∀ (c : Constraints) (validation : Validation),
        c.annotationsNamed validation "Pattern"
          = (validation.package?.bind fun package => c.pattern.map fun pattern =>
              { typeName := package ++ ".Pattern"
                arguments := .ofList [("regexp", ⟨Text.literal pattern, none⟩)] }).toList)
      ∧ (∀ pattern, (Text.literal pattern).toList
          = Rule.quoted (Text.replaceChar Text.quoteMark [Text.escapeMark, Text.quoteMark]
              (Text.replaceChar Text.escapeMark [Text.escapeMark, Text.escapeMark]
                pattern.toList)))
      ∧ (∀ pattern, Text.Spells (Text.literal pattern) pattern)
      ∧ Function.Injective Text.literal :=
  ⟨annotationsNamed_pattern, Text.toList_literal_eq_replaceChar, Text.Spells.literal,
    Text.literal_injective⟩

end Constraints

end ApiTypes
