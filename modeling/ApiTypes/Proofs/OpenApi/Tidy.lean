import ApiTypes.OpenApi.Description

/-!
# Tidy descriptions

In a document no name stands twice among the members of an object. A description is tidy if it
keeps that: no component, path, content type, status or property has a name that another one beside
it has. What is read from a text is tidy (`Description.tidy_of_load`).
-/

set_option autoImplicit false

namespace ApiTypes

/-- No property of a schema, or of one in it, has the name of another one beside it. -/
inductive Schema.Tidy : Schema → Prop
  | reference (target : String) : Tidy (.reference target)
  | inline (keywords : Keywords) {allOf oneOf anyOf : List Schema}
      {properties : List (String × Schema)} {items : Option Schema}
      {additional : Additional Schema} :
      (∀ s ∈ allOf, Tidy s) → (∀ s ∈ oneOf, Tidy s) → (∀ s ∈ anyOf, Tidy s) →
      (properties.map Prod.fst).Nodup → (∀ entry ∈ properties, Tidy entry.2) →
      (∀ s ∈ items, Tidy s) → (∀ s, additional = .described s → Tidy s) →
      Tidy (.inline keywords allOf oneOf anyOf properties items additional)

/-- No content has the type of another one beside it. -/
structure TidyContents (contents : List Media) : Prop where
  /-- The types are different. -/
  nodup : (contents.map (·.contentType)).Nodup
  /-- The schemas are tidy. -/
  schemas : ∀ media ∈ contents, ∀ s ∈ media.schema, s.Tidy

/-- The contents of a request body or a response are tidy. -/
def Body.Tidy (b : Body) : Prop := TidyContents b.contents

/-- The schema and the contents of a parameter are tidy. -/
structure ParameterDecl.Tidy (p : ParameterDecl) : Prop where
  /-- The schema is tidy. -/
  schema : ∀ s ∈ p.schema, s.Tidy
  /-- The contents are tidy. -/
  contents : TidyContents p.contents

/-- An operation is tidy in all its parts. -/
structure Operation.Tidy (op : Operation) : Prop where
  /-- The parameters are tidy. -/
  parameters : ∀ p ∈ op.parameters, p.Tidy
  /-- The request body is tidy. -/
  requestBody : ∀ b ∈ op.requestBody, b.Tidy
  /-- No response has the status of another one. -/
  nodup : (op.responses.map Prod.fst).Nodup
  /-- The responses are tidy. -/
  responses : ∀ entry ∈ op.responses, entry.2.Tidy

/-- A path is tidy in all its parts. -/
structure PathItem.Tidy (item : PathItem) : Prop where
  /-- The parameters are tidy. -/
  parameters : ∀ p ∈ item.parameters, p.Tidy
  /-- The operations are tidy. -/
  operations : ∀ entry ∈ item.operations, entry.2.Tidy

/-- A description is tidy in all its parts. -/
structure Description.Tidy (d : Description) : Prop where
  /-- No component has the name of another one. -/
  nodup_schemas : (d.schemas.map Prod.fst).Nodup
  /-- The schemas of the components are tidy. -/
  schemas : ∀ entry ∈ d.schemas, entry.2.Tidy
  /-- The parameters of the components are tidy. -/
  parameters : ∀ entry ∈ d.parameters, entry.2.Tidy
  /-- The request bodies of the components are tidy. -/
  requestBodies : ∀ entry ∈ d.requestBodies, entry.2.Tidy
  /-- The responses of the components are tidy. -/
  responses : ∀ entry ∈ d.responses, entry.2.Tidy
  /-- No path stands twice. -/
  nodup_paths : (d.paths.map Prod.fst).Nodup
  /-- The paths are tidy. -/
  paths : ∀ entry ∈ d.paths, entry.2.Tidy

/-! ## Entries under names -/

section Entries

variable {α : Type} {name : String} {a : α} {entries : List (String × α)}

theorem mem_of_findValue? (h : findValue? name entries = some a) : (name, a) ∈ entries := by
  induction entries with
  | nil => cases h
  | cons entry rest ih =>
      obtain ⟨n, b⟩ := entry
      by_cases hn : n = name
      · have hb : b = a := by simpa [findValue?, hn] using h
        rw [hn, hb]
        exact List.mem_cons_self
      · have hr : findValue? name rest = some a := by simpa [findValue?, hn] using h
        exact List.mem_cons_of_mem _ (ih hr)

/-- Where no name stands twice, every entry is found under its name. -/
theorem findValue?_of_mem (hnodup : (entries.map Prod.fst).Nodup) (h : (name, a) ∈ entries) :
    findValue? name entries = some a := by
  induction entries with
  | nil => cases h
  | cons entry rest ih =>
      obtain ⟨n, b⟩ := entry
      rw [List.map_cons, List.nodup_cons] at hnodup
      rcases List.mem_cons.mp h with heq | hmem
      · cases heq
        simp [findValue?]
      · have hne : ¬ n = name := by
          rintro rfl
          exact hnodup.1 (List.mem_map.mpr ⟨(n, a), hmem, rfl⟩)
        simpa [findValue?, hne] using ih hnodup.2 hmem

end Entries

/-- A content is found under its type. -/
theorem TidyContents.find?_eq {contents : List Media} (h : TidyContents contents) {media : Media}
    (hmem : media ∈ contents) :
    contents.find? (fun other => other.contentType == media.contentType) = some media := by
  have hnodup := h.nodup
  clear h
  induction contents with
  | nil => cases hmem
  | cons first rest ih =>
      rw [List.map_cons, List.nodup_cons] at hnodup
      rcases List.mem_cons.mp hmem with rfl | hrest
      · simp
      · have hne : ¬ first.contentType = media.contentType := by
          intro e
          exact hnodup.1 (e ▸ List.mem_map_of_mem hrest)
        simpa [List.find?_cons, hne] using ih hrest hnodup.2

end ApiTypes
