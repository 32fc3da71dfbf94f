import ApiTypes.Proofs.Document.Characters
import ApiTypes.Proofs.Document.Loops
import ApiTypes.Proofs.OpenApi.Loading
import ApiTypes.Proofs.OpenApi.Place
import ApiTypes.Proofs.Text.Percent

/-!
# Keys read as references

The key of a component is a pointer, which looks like a reference to it, but the two are not written
in the same way: a key escapes the tildes and slashes of a name, and the reader of references
undoes this and decodes percent escapes as well. So a key read as a reference leads to the component
whose name is left when the percent escapes in the name are decoded
(`Pointer.componentName?_componentPointer`), which is the same component exactly if there is no
escape in its name. A component without a name cannot be referred to at all, and neither can a
section with a slash in its name (`Description.resolve?_key_iff`).
-/

set_option autoImplicit false

namespace ApiTypes

namespace Pointer

/-- The pointer to a component of a section. -/
def componentPointer (section_ name : String) : String :=
  "#/components/" ++ section_ ++ "/" ++ escapeSegment name

/-- A name with the percent escapes in it decoded. -/
def decodedName (name : String) : String :=
  String.ofList (Text.percentDecode name.toList)

variable {section_ name : String}

theorem decode_escape (cs : List Char) : decode (escape cs) = Text.percentDecode cs := by
  rw [decode, unescape_escape]

theorem toList_componentPointer (section_ name : String) :
    (componentPointer section_ name).toList
      = '#' :: '/' ::
        ("components".toList ++ '/' :: (section_.toList ++ '/' :: escape name.toList)) := by
  unfold componentPointer
  simp [escapeSegment]

theorem splitSlash_escape (cs : List Char) : splitSlash (escape cs) = [escape cs] :=
  splitSlash_of_notMem (slash_notMem_escape cs)

/-- A text with a slash in it is cut into two parts or more. -/
theorem two_le_length_splitSlash {cs : List Char} (h : '/' ∈ cs) : 2 ≤ (splitSlash cs).length := by
  obtain ⟨before, after, rfl⟩ := List.append_of_mem h
  have hbefore := List.length_pos_iff.mpr (splitSlash_ne_nil before)
  have hafter := List.length_pos_iff.mpr (splitSlash_ne_nil after)
  rw [splitSlash_append, List.length_append]
  omega

theorem decodedName_eq_self_iff : decodedName name = name ↔ ¬ Text.HasEscape name.toList := by
  rw [← Text.percentDecode_eq_self_iff, decodedName, ← String.toList_inj, String.toList_ofList]

/-- The last segment of a pointer to a component is its name, decoded. -/
theorem lastSegment_componentPointer (section_ name : String) :
    lastSegment (componentPointer section_ name) = decodedName name := by
  have hcut : splitSlash (componentPointer section_ name).toList
      = splitSlash ('#' :: '/' :: ("components".toList ++ '/' :: section_.toList))
        ++ [escape name.toList] := by
    rw [toList_componentPointer, ← splitSlash_escape name.toList, ← splitSlash_append]
    simp
  rw [lastSegment, hcut, List.getLastD_eq_getLast?, List.getLast?_concat, Option.getD_some,
    decode_escape, decodedName]

/-- What is cut from a pointer to a component after its first two characters. -/
theorem splitSlash_components (section_ name : String) :
    splitSlash ("components".toList ++ '/' :: (section_.toList ++ '/' :: escape name.toList))
      = "components".toList :: (splitSlash section_.toList ++ [escape name.toList]) := by
  have hcomponents : splitSlash "components".toList = ["components".toList] := by decide
  rw [splitSlash_append, splitSlash_append, hcomponents, splitSlash_escape, List.singleton_append]

/-- A section with a slash in its name has no components. -/
theorem componentName?_of_slash (h : '/' ∈ section_.toList) :
    componentName? (componentPointer section_ name) section_ = none := by
  have htwo := two_le_length_splitSlash h
  rw [componentName?, toList_componentPointer]
  simp only [splitSlash_components]
  split
  · rename_i components place last hcut
    -- There are more than three segments.
    have hlength := congrArg List.length hcut
    simp only [List.length_cons, List.length_append, List.length_nil] at hlength
    omega
  · rfl

/-- In other sections the pointer to a component is read as the decoded name, unless there is no
name. -/
theorem componentName?_componentPointer (h : '/' ∉ section_.toList) :
    componentName? (componentPointer section_ name) section_
      = if name = "" then none else some (decodedName name) := by
  have hcomponents : String.ofList "components".toList = "components" := by decide
  rw [componentName?, toList_componentPointer]
  simp only [splitSlash_components, splitSlash_of_notMem h, List.singleton_append,
    String.ofList_toList, and_self, if_true, decode_escape]
  by_cases hname : name = ""
  · subst hname
    simp [Text.percentDecode_eq_nil_iff]
  · have hne : (Text.percentDecode name.toList).isEmpty = false := by
      rw [List.isEmpty_eq_false_iff, Ne, Text.percentDecode_eq_nil_iff]
      simpa using hname
    simp [hne, hname, decodedName]

/-- **A pointer to a component is read as its name** exactly if there is a name, no slash in the
section and no percent escape in the name. -/
theorem componentName?_eq_some_iff :
    componentName? (componentPointer section_ name) section_ = some name ↔
      name ≠ "" ∧ '/' ∉ section_.toList ∧ ¬ Text.HasEscape name.toList := by
  by_cases hslash : '/' ∈ section_.toList
  · simp [componentName?_of_slash hslash, hslash]
  · rw [componentName?_componentPointer hslash, ← decodedName_eq_self_iff]
    by_cases hname : name = ""
    · simp [hname]
    · simp [hname, hslash]

end Pointer

namespace Description

variable {d : Description} {n : SchemaNode} {name : String}

theorem text_component (name : String) :
    (SchemaKey.component name).text = Pointer.componentPointer "schemas" name := by
  have hschemas : "#/components/schemas/" = "#/components/" ++ "schemas" ++ "/" := rfl
  exact congrArg (fun start => start ++ Pointer.escapeSegment name) hschemas

/-- A key read as a reference leads to the component of the decoded name. -/
theorem resolve?_component (hname : name ≠ "") :
    d.resolve? (SchemaKey.component name).text
      = (findValue? (Pointer.decodedName name) d.schemas).map fun schema =>
          ⟨SchemaKey.component (Pointer.decodedName name), schema⟩ := by
  rw [resolve?, text_component, Pointer.componentName?_componentPointer (by decide), if_neg hname,
    Option.bind_eq_bind, Option.bind_some]
  cases findValue? (Pointer.decodedName name) d.schemas with
  | none => rfl
  | some schema => rfl

/-- **A component is found under its key exactly if it has a name without percent escapes.** -/
theorem resolve?_key_iff (hd : d.Tidy) (h : (name, n) ∈ d.components) :
    d.resolve? n.key.text = some n ↔ name ≠ "" ∧ ¬ Text.HasEscape name.toList := by
  have hkey := key_of_mem_components h
  by_cases hname : name = ""
  · subst hname
    have hnone : d.resolve? (SchemaKey.component "").text = none := by
      rw [resolve?, text_component, Pointer.componentName?_componentPointer (by decide), if_pos rfl]
      rfl
    rw [hkey, hnone]
    simp
  · rw [hkey, resolve?_component hname, ← Pointer.decodedName_eq_self_iff]
    constructor
    · intro hfound
      obtain ⟨schema, -, heq⟩ := Option.map_eq_some_iff.mp hfound
      -- The node that is found has the key of the decoded name.
      rw [← heq] at hkey
      exact ⟨hname, SchemaKey.component_inj hkey⟩
    · rintro ⟨-, hdecoded⟩
      obtain ⟨entry, hentry, heq⟩ := List.mem_map.mp h
      cases heq
      rw [hdecoded, findValue?_of_mem hd.nodup_schemas hentry]
      rfl

end Description

/-! ## A document with such names -/

/-- A document with a component that has no name, one whose name holds a percent escape, and one
whose name holds what only looks like an escape. -/
def escapedText : String :=
  "openapi: 3.1.0\ncomponents:\n  schemas:\n    '':\n      type: string\n"
    ++ "    a%20b:\n      type: string\n    ~1/%7g:\n      type: string\n"

theorem read_escapedText :
    ∃ v d, Yaml.read? escapedText = some v ∧ Description.ofValue .late v = .ok d ∧
      (d.components.map fun entry => (entry.1, (d.resolve? entry.2.key.text).isSome))
        = [("", false), ("a%20b", false), ("~1/%7g", true)] := by
  have hchars : escapedText = String.ofList _ := Text.append_eq_ofList rfl rfl
  obtain ⟨v, hv, hfacts⟩ := Option.map_eq_some_iff.mp
    (show (Yaml.read? escapedText).map (fun v => (Description.ofValue .late v).toOption.map fun d =>
        d.components.map fun entry => (entry.1, (d.resolve? entry.2.key.text).isSome))
        = some (some [("", false), ("a%20b", false), ("~1/%7g", true)]) by
      rw [Yaml.read?_ofList hchars]
      decide +kernel)
  obtain ⟨d, hread, hcomponents⟩ := exists_of_map_toOption hfacts
  exact ⟨v, d, hv, hread, hcomponents⟩

/-- A name with a percent escape is not read back, nor is a section with a slash, and a component
without a name is not found. -/
theorem key_not_read_back :
    Pointer.componentName? (Pointer.componentPointer "schemas" "a%20b") "schemas" = some "a b" ∧
    Pointer.lastSegment (Pointer.componentPointer "schemas" "a%20b") = "a b" ∧
    Pointer.componentName? (Pointer.componentPointer "a/b" "c") "a/b" = none ∧
    ∃ v d, Yaml.read? escapedText = some v ∧ Description.ofValue .late v = .ok d ∧
      (d.components.map fun entry => (entry.1, (d.resolve? entry.2.key.text).isSome))
        = [("", false), ("a%20b", false), ("~1/%7g", true)] :=
  ⟨by decide +kernel, by decide +kernel, by decide +kernel, read_escapedText⟩

/-- **Reading references undoes what keys escape, but for percent escapes.** For every section and
every name, the pointer to the component of the name in the section is read as the name exactly if
there is a name, the section has no slash, and no percent sign in the name has two hexadecimal
digits after it; and its last segment is the name exactly if the last of these holds. So each
component of a document is what its own key leads to exactly if it has a name without such
escapes. -/
theorem keys_read_back :
    (∀ section_ name,
      (Pointer.componentName? (Pointer.componentPointer section_ name) section_ = some name ↔
        name ≠ "" ∧ '/' ∉ section_.toList ∧ ¬ Text.HasEscape name.toList) ∧
      (Pointer.lastSegment (Pointer.componentPointer section_ name) = name ↔
        ¬ Text.HasEscape name.toList)) ∧
    ∀ (dialect : Dialect) (v : Value) (d : Description), v.Tidy →
      Description.ofValue dialect v = .ok d → ∀ name n, (name, n) ∈ d.components →
        (d.resolve? n.key.text = some n ↔ name ≠ "" ∧ ¬ Text.HasEscape name.toList) := by
  constructor
  · intro section_ name
    constructor
    · exact Pointer.componentName?_eq_some_iff
    · rw [Pointer.lastSegment_componentPointer]
      exact Pointer.decodedName_eq_self_iff
  · intro dialect v d hv hread name n hmem
    exact Description.resolve?_key_iff (Description.tidy_of_ofValue hv hread) hmem

/-- The component whose name holds no escape is what its key leads to, tilde and slash included. -/
theorem keys_read_back_escapedText :
    ∃ v d n, v.Tidy ∧ Description.ofValue .late v = .ok d ∧ ("~1/%7g", n) ∈ d.components ∧
      d.resolve? n.key.text = some n := by
  obtain ⟨v, d, hv, hread, hcomponents⟩ := read_escapedText
  have htidy := Yaml.tidy_of_read? hv
  have hmem : ("~1/%7g", true)
      ∈ d.components.map fun entry => (entry.1, (d.resolve? entry.2.key.text).isSome) := by
    rw [hcomponents]
    decide
  obtain ⟨⟨name, n⟩, hn, heq⟩ := List.mem_map.mp hmem
  obtain rfl : name = "~1/%7g" := congrArg Prod.fst heq
  have hplain : ¬ Text.HasEscape "~1/%7g".toList :=
    Text.percentDecode_eq_self_iff.mp (by decide +kernel)
  exact ⟨v, d, n, htidy, hread, hn,
    (keys_read_back.2 .late v d htidy hread _ n hn).mpr ⟨by decide, hplain⟩⟩

end ApiTypes
