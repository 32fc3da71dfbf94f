import ApiTypes.Proofs.OpenApi.Followed
import ApiTypes.Proofs.Store.Distinct
import Mathlib.Data.List.Induction

/-!
# Parameters that are merged

A parameter has a place in requests, its name and where it is (`Parameter.place`). The parameters of
an operation are those that its path declares and then those that it declares itself, merged by
their places: a place stands where it is first declared, with what is last declared for it
(`Merges`). So what an operation declares comes in the place of what the path declares. Merging is
the same in both dialects (`Description.endpoints_inLate`), and it is done for every operation that
is told (`parameters_of_endpoints`).
-/

set_option autoImplicit false

namespace ApiTypes

/-- What a parameter is in a request: its name, and where it is. -/
def Parameter.place (p : Parameter) : String × String := (p.name, p.location)

namespace Description

/-! ## Merging -/

section Merging

variable {p q : Parameter} {ps found fromPath fromOperation merged : List Parameter}

/-- Parameters that are merged by their places. -/
structure Merges (found merged : List Parameter) : Prop where
  /-- Every place stands where it is first declared. -/
  places_eq : merged.map Parameter.place = (found.map Parameter.place).eraseDups
  /-- What stands there is what is declared last for the place. -/
  last : ∀ p ∈ merged, ∃ before after, found = before ++ p :: after ∧
    ∀ q ∈ after, ¬ q.place = p.place

theorem place_eq_iff : q.place = p.place ↔ q.name = p.name ∧ q.location = p.location := by
  rw [Parameter.place, Parameter.place, Prod.mk.injEq]

theorem map_place_mergeParameter (p : Parameter) (ps : List Parameter) :
    (mergeParameter p ps).map Parameter.place
      = if p.place ∈ ps.map Parameter.place then ps.map Parameter.place
        else ps.map Parameter.place ++ [p.place] := by
  induction ps with
  | nil => rfl
  | cons first rest ih =>
      simp only [mergeParameter, ← place_eq_iff]
      by_cases hplace : first.place = p.place
      · rw [if_pos hplace, if_pos (by rw [List.map_cons, hplace]; exact List.mem_cons_self),
          List.map_cons, List.map_cons, hplace]
      · have hmem : p.place ∈ (first :: rest).map Parameter.place ↔
            p.place ∈ rest.map Parameter.place := by
          rw [List.map_cons, List.mem_cons, or_iff_right (Ne.symm hplace)]
        rw [if_neg hplace, List.map_cons, ih]
        simp only [hmem]
        split
        · rfl
        · rfl

/-- What is put in the list takes the place of everything else that is there. -/
theorem place_ne_of_mem_mergeParameter (hnodup : (ps.map Parameter.place).Nodup)
    (h : q ∈ mergeParameter p ps) : q = p ∨ (q ∈ ps ∧ ¬ q.place = p.place) := by
  induction ps with
  | nil => exact Or.inl (List.mem_singleton.mp h)
  | cons first rest ih =>
      rw [List.map_cons, List.nodup_cons] at hnodup
      simp only [mergeParameter, ← place_eq_iff] at h
      by_cases hplace : first.place = p.place
      · rw [if_pos hplace] at h
        rcases List.mem_cons.mp h with rfl | hrest
        · exact Or.inl rfl
        · -- What is left has other places than the one that is replaced.
          refine Or.inr ⟨List.mem_cons_of_mem _ hrest, fun hq => hnodup.1 ?_⟩
          rw [hplace, ← hq]
          exact List.mem_map_of_mem hrest
      · rw [if_neg hplace] at h
        rcases List.mem_cons.mp h with rfl | hrest
        · exact Or.inr ⟨List.mem_cons_self, hplace⟩
        · rcases ih hnodup.2 hrest with rfl | ⟨hmem, hq⟩
          · exact Or.inl rfl
          · exact Or.inr ⟨List.mem_cons_of_mem _ hmem, hq⟩

namespace Merges

/-- No place stands twice. -/
theorem nodup (h : Merges found merged) : (merged.map Parameter.place).Nodup := by
  rw [h.places_eq]
  exact nodup_eraseDups _

theorem nil : Merges [] [] := ⟨rfl, nofun⟩

/-- One more parameter is merged. -/
theorem concat (h : Merges found merged) (p : Parameter) :
    Merges (found ++ [p]) (mergeParameter p merged) where
  places_eq := by
    rw [map_place_mergeParameter, h.places_eq, List.map_append, List.map_singleton,
      eraseDups_append_singleton]
  last q hq := by
    rcases place_ne_of_mem_mergeParameter h.nodup hq with rfl | ⟨hmem, hplace⟩
    · exact ⟨found, [], rfl, nofun⟩
    · -- It is still the last one for its place, as the new one has another.
      obtain ⟨before, after, rfl, hafter⟩ := h.last q hmem
      refine ⟨before, after ++ [p], by rw [List.append_assoc, List.cons_append], ?_⟩
      intro other hother
      rcases List.mem_append.mp hother with hin | hp
      · exact hafter other hin
      · rw [List.mem_singleton.mp hp]
        exact fun heq => hplace heq.symm

/-- Parameters are merged one by one. -/
theorem foldl (found : List Parameter) :
    Merges found (found.foldl (fun merged p => mergeParameter p merged) []) := by
  -- From the end of the list, since what is declared last is merged last.
  induction found using List.reverseRecOn with
  | nil => exact nil
  | append_singleton found p ih =>
      rw [List.foldl_concat]
      exact ih.concat p

/-- Every place that is declared stands there, and no other. -/
theorem exists_place_iff (h : Merges found merged) (place : String × String) :
    (∃ p ∈ merged, p.place = place) ↔ ∃ p ∈ found, p.place = place := by
  rw [← List.mem_map, ← List.mem_map, h.places_eq, List.mem_eraseDups]

/-- What an operation declares comes in the place of what the path declares. -/
theorem mem_of_place_mem (h : Merges (fromPath ++ fromOperation) merged) (hp : p ∈ merged)
    (hplace : p.place ∈ fromOperation.map Parameter.place) : p ∈ fromOperation := by
  obtain ⟨before, after, heq, hafter⟩ := h.last p hp
  obtain ⟨q, hq, hqp⟩ := List.mem_map.mp hplace
  rcases List.append_eq_append_iff.mp heq with ⟨more, -, hrest⟩ | ⟨more, -, hrest⟩
  · rw [hrest]
    exact List.mem_append_right _ List.mem_cons_self
  · -- All that the operation declares comes after the parameter.
    cases more with
    | nil =>
        rw [List.nil_append] at hrest
        rw [← hrest]
        exact List.mem_cons_self
    | cons first others =>
        obtain ⟨-, rfl⟩ := List.cons.inj hrest
        exact absurd hqp (hafter q (List.mem_append_right _ hq))

end Merges

end Merging

/-! ## Declarations -/

/-- Declared parameters with the keys at which they stand. -/
def keyedParameters (key : SchemaKey) (ps : List ParameterDecl) :
    List (SchemaKey × ParameterDecl) :=
  ps.zipIdx.map fun entry => ((key.child "parameters").item entry.2, entry.1)

theorem declared_eq_append (pathKey operationKey : SchemaKey) (item : PathItem) (op : Operation) :
    declared pathKey operationKey item op
      = keyedParameters pathKey item.parameters ++ keyedParameters operationKey op.parameters :=
  rfl

/-- The parameters of an operation are those that the path declares and those that the operation
declares, references followed, merged by their places. -/
def MergesParameters (d : Description) (path : String) (item : PathItem) (method : String)
    (op : Operation) (merged : List Parameter) : Prop :=
  ∃ fromPath fromOperation : List Parameter,
    List.Forall₂ (fun entry => d.ParameterSays d.MayRead entry.1 entry.2)
      (keyedParameters (SchemaKey.child ⟨"#/paths"⟩ path) item.parameters) fromPath ∧
    List.Forall₂ (fun entry => d.ParameterSays d.MayRead entry.1 entry.2)
      (keyedParameters ((SchemaKey.child ⟨"#/paths"⟩ path).child method) op.parameters)
      fromOperation ∧
    Merges (fromPath ++ fromOperation) merged ∧
    (merged.map Parameter.place).Nodup ∧
    (∀ place, (∃ p ∈ merged, p.place = place) ↔
      ∃ p ∈ fromPath ++ fromOperation, p.place = place) ∧
    ∀ p ∈ merged, p.place ∈ fromOperation.map Parameter.place → p ∈ fromOperation

variable {d : Description} {path method : String} {item : PathItem} {op : Operation} {e : Endpoint}

theorem Describes.mergesParameters (h : d.Describes d.MayRead path item method op e) :
    d.MergesParameters path item method op e.parameters := by
  obtain ⟨found, hfound, hmerged⟩ := h.parameters
  rw [declared_eq_append] at hfound
  obtain ⟨fromPath, fromOperation, rfl, hpath, hoperation⟩ := exists_of_forall₂_append hfound
  have hmerges : Merges (fromPath ++ fromOperation) e.parameters := by
    rw [hmerged]
    exact Merges.foldl _
  exact ⟨fromPath, fromOperation, hpath, hoperation, hmerges, hmerges.nodup,
    hmerges.exists_place_iff, fun p hp => hmerges.mem_of_place_mem hp⟩

/-! ## Both dialects -/

/-- A description in the late dialect. -/
def inLate (d : Description) : Description := { d with dialect := .late }

theorem Describes.inLate (h : d.Describes d.MayRead path item method op e) :
    d.inLate.Describes d.inLate.MayRead path item method op e := by
  have hmay : ∀ reference, d.SharedReference reference → d.MayRead reference →
      d.inLate.MayRead reference := fun _ _ _ => rfl
  have hlate := h.mono hmay
  exact ⟨hlate.path_eq, hlate.method_eq, hlate.operationId_eq, hlate.deprecated_eq,
    hlate.parameters, hlate.noRequestBody, hlate.requestBody, hlate.responses⟩

/-- What is told in the early dialect is told in the late one. -/
theorem endpoints_inLate {es : List Endpoint} (h : d.endpoints = .ok es) :
    d.inLate.endpoints = .ok es := by
  obtain ⟨found, hflat, hfound⟩ := endpoints_ok_iff.mp h
  refine endpoints_ok_iff.mpr ⟨found, hflat, hfound.imp ?_⟩
  rintro entry told ⟨hnone, htold⟩
  exact ⟨hnone, htold.imp fun _ _ hdescribes => hdescribes.inLate⟩

end Description

/-! ## All operations -/

/-- **The parameters of all operations that are told are merged alike.** They are those that the
path declares and then those that the operation declares, references followed. No two of them have
the same name and location; each name and location that is declared stands where it is first
declared, with what is last declared for it, and so with what the operation declares if it does.
What is told of a description in the early dialect is told of it in the late one. -/
theorem parameters_of_endpoints {d : Description} {es : List Endpoint} (h : d.endpoints = .ok es) :
    (∃ found, es = found.flatten ∧
      List.Forall₂ (fun entry told =>
        List.Forall₂ (fun operation e => e.path = entry.1 ∧ e.method = operation.1 ∧
            d.MergesParameters entry.1 entry.2 operation.1 operation.2 e.parameters)
          (Description.operationsOf entry.2) told)
        d.paths found) ∧
    d.inLate.endpoints = .ok es := by
  refine ⟨?_, Description.endpoints_inLate h⟩
  obtain ⟨found, hflat, hfound⟩ := Description.endpoints_ok_iff.mp h
  refine ⟨found, hflat, hfound.imp fun entry told htold => htold.2.imp fun _ e hdescribes => ?_⟩
  exact ⟨hdescribes.path_eq, hdescribes.method_eq, hdescribes.mergesParameters⟩

/-- A parameter whose schema is a component. -/
def componentParameter (name location component : String) (required : Bool) : ParameterDecl where
  name := some name
  location := some location
  required := required
  schema := some (.reference ("#/components/schemas/" ++ component))

/-- A description of an operation that declares a parameter of its path again, and has others of the
same name and of the same location. -/
def againDescription : Description where
  dialect := .early
  version := "3.0.0"
  parameters := [("Page", componentParameter "page" "query" "Text" false)]
  paths := [("/pets", {
    parameters := [{ reference := some "#/components/parameters/Page" },
      componentParameter "page" "header" "Text" false]
    operations := [("get", {
      parameters := [componentParameter "size" "query" "Number" false,
        componentParameter "page" "query" "Number" true] })] })]

/-- What the operation declares stands at the place of what the path refers to. -/
theorem parameters_of_againDescription :
    ∃ es, againDescription.endpoints = .ok es ∧
      (es.flatMap (·.parameters)).map (fun p => (p.place, p.schema.key.text))
        = [(("page", "query"), "#/paths/~1pets/get/parameters/1/schema"),
          (("page", "header"), "#/paths/~1pets/parameters/1/schema"),
          (("size", "query"), "#/paths/~1pets/get/parameters/0/schema")] ∧
      (∃ found, es = found.flatten ∧
        List.Forall₂ (fun entry told =>
          List.Forall₂ (fun operation e => e.path = entry.1 ∧ e.method = operation.1 ∧
              againDescription.MergesParameters entry.1 entry.2 operation.1 operation.2
                e.parameters)
            (Description.operationsOf entry.2) told)
          againDescription.paths found) ∧
      againDescription.inLate.endpoints = .ok es := by
  obtain ⟨es, hes, htold⟩ := exists_of_map_toOption
    (show againDescription.endpoints.toOption.map (fun es =>
        (es.flatMap (·.parameters)).map fun p => (p.place, p.schema.key.text))
      = some [(("page", "query"), "#/paths/~1pets/get/parameters/1/schema"),
          (("page", "header"), "#/paths/~1pets/parameters/1/schema"),
          (("size", "query"), "#/paths/~1pets/get/parameters/0/schema")]
      by decide +kernel)
  exact ⟨es, hes, htold, parameters_of_endpoints hes⟩

end ApiTypes
