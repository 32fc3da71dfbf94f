import ApiTypes.Proofs.Document.Characters
import ApiTypes.Proofs.Document.Loops
import ApiTypes.Proofs.Store.Imports
import ApiTypes.Proofs.Walk.Results

/-!
# What the models of a result refer to

In the store of a result every type that a property is written with is there
(`TypeStore.Whole.exists_get?_of_hasParts`). So a model refers to all qualified names that these
types need, and to nothing else but what annotations bring (`referencedImports_of_resolveText`).

The name of a map is no such name. The text of a property may say `Map` at any depth, but the
qualified name of maps is told for the map itself alone, not for the model that has the property.
-/

set_option autoImplicit false

namespace ApiTypes

theorem ModelType.mem_references_of_mem_parts {t : ModelType} {j : TypeId} (h : j ∈ t.parts) :
    j ∈ t.references := by
  cases t with
  | array item c d => exact h
  | map item c d => exact h
  | mapped name package generics isArray c d => exact h
  | _ => cases h

namespace TypeStore.Whole

variable {s : TypeStore}

/-- What a type refers to has a type. -/
theorem exists_get?_of_references (h : s.Whole) {i j : Nat} {t : ModelType}
    (hget : s.get? i = some t) (hj : j ∈ t.references) : ∃ u, s.get? j = some u :=
  Option.isSome_iff_exists.mp (h.filled j (h.closed.references_lt i t hget j hj))

/-- What a type is written with has a type, at every depth. -/
theorem exists_get?_of_hasParts (h : s.Whole) {p j : Nat}
    (hpj : Relation.ReflTransGen s.HasPart p j) (hp : ∃ t, s.get? p = some t) :
    ∃ u, s.get? j = some u := by
  induction hpj with
  | refl => exact hp
  | tail _ hstep _ =>
      obtain ⟨t, hget, hj⟩ := hstep
      exact h.exists_get?_of_references hget (ModelType.mem_references_of_mem_parts hj)

end TypeStore.Whole

/-- The store of a result is whole. -/
theorem Resolver.whole_of_run {r : Resolver} {api : ResolvedApi} (h : r.run = .ok api) :
    api.types.Whole := by
  obtain ⟨s, ho, htypes⟩ := outcome_of_run h
  obtain ⟨hwhole, _, _⟩ := @tells_resolveAll r [] {} _ s ho TypeStore.Whole.empty
    fun i hi => by cases hi
  rwa [← htypes] at hwhole

/-- **A model refers to what its properties are written with, but not to maps.** In a result, every
type that is reached from a property of a model along items and type arguments is there, and the
model refers to each qualified name that the type needs. Besides these it refers to those that
annotations of the model and of its properties bring, and to no others. No map needs a name for
itself, so the name of maps is missing unless an annotation or a type of another kind brings it. -/
theorem referencedImports_of_resolveText {text : String} {options : Options} {api : ResolvedApi}
    (h : resolveText text options = .ok api) {i : Nat} {t : ModelType}
    (hget : api.types.get? i = some t) (hmodel : t.isModel = true) :
    (∀ p ∈ (api.types.properties i).values, ∀ j, Relation.ReflTransGen api.types.HasPart p j →
      ∃ u, api.types.get? j = some u ∧ ∀ q, u.Needs q → q ∈ api.types.referencedImports i) ∧
    ∀ q, q ∈ api.types.referencedImports i ↔ api.types.Brings i q := by
  have hwhole : api.types.Whole := by
    unfold resolveText at h
    split at h
    · exact Resolver.whole_of_run h
    · cases h
  have hbrings : ∀ q, q ∈ api.types.referencedImports i ↔ api.types.Brings i q := fun _ =>
    TypeStore.mem_referencedImports_of_isModel hget hmodel
  refine ⟨fun p hp j hpj => ?_, hbrings⟩
  obtain ⟨k, owner, howner, hreference⟩ := TypeStore.exists_of_mem_properties hp
  obtain ⟨u, hu⟩ := hwhole.exists_get?_of_hasParts hpj
    (hwhole.exists_get?_of_references howner hreference)
  exact ⟨u, hu, fun q hneeds => (hbrings q).mpr (.part hp hpj hu hneeds)⟩

/-- A description of shelves, each with a list of maps of labels. -/
def shelfText : String :=
  "openapi: 3.0.0\ninfo:\n  title: a\n  version: b\npaths: \x7b\x7d\ncomponents:\n  schemas:\n"
    ++ "    Shelf:\n      properties:\n        labels:\n          type: array\n          items:\n"
    ++ "            type: object\n            additionalProperties:\n              type: string\n"

/-- What is looked at in the result: whether the first type is a model, its properties and what it
refers to, how the labels are written, and with what the types are written. -/
def shelfView (api : ResolvedApi) : Bool × List Nat × List String × String × List (List Nat) :=
  ((api.types.get? (0 : Nat)).any ModelType.isModel, (api.types.properties (0 : Nat)).values,
    api.types.referencedImports (0 : Nat), api.types.typeName (3 : Nat),
    [1, 2, 3].map (api.types.listed ModelType.parts))

/-- The labels are written as an array of maps of texts. Texts are imported, maps are not. -/
theorem referencedImports_of_shelfText :
    ∃ api t, resolveText shelfText {} = .ok api ∧ api.types.get? (0 : Nat) = some t ∧
      t.isModel = true ∧ 3 ∈ (api.types.properties (0 : Nat)).values ∧
      api.types.typeName (3 : Nat) = "Map<String, String>[]" ∧
      Relation.ReflTransGen api.types.HasPart 3 1 ∧
      (∃ u, api.types.get? (1 : Nat) = some u ∧
        ∀ q, u.Needs q → q ∈ api.types.referencedImports (0 : Nat)) ∧
      api.types.referencedImports (0 : Nat) = ["java.lang.String"] ∧
      ¬ api.types.Brings 0 "java.util.Map" := by
  have hchars : shelfText = String.ofList _ :=
    Text.append_eq_ofList (Text.append_eq_ofList rfl rfl) rfl
  obtain ⟨api, hrun, hview⟩ := exists_of_map_toOption
    (show (resolveText shelfText {}).toOption.map shelfView
        = some (true, [3], ["java.lang.String"], "Map<String, String>[]", [[], [1], [2]]) by
      rw [resolveText, Description.load, Yaml.read?_ofList hchars]
      decide +kernel)
  simp only [shelfView, Prod.mk.injEq, List.map_cons, List.map_nil, List.cons.injEq, and_true]
    at hview
  obtain ⟨hfirst, hproperties, himports, hname, _, hmap, harray⟩ := hview
  obtain ⟨t, hget, hmodel⟩ := (Option.any_eq_true _ _).mp hfirst
  have hproperty : 3 ∈ (api.types.properties (0 : Nat)).values := by
    rw [hproperties]
    exact List.mem_singleton_self 3
  have hitem : api.types.HasPart 3 2 :=
    TypeStore.mem_listed.mp (harray ▸ List.mem_singleton_self 2)
  have hvalue : api.types.HasPart 2 1 :=
    TypeStore.mem_listed.mp (hmap ▸ List.mem_singleton_self 1)
  have hpath := Relation.ReflTransGen.head hitem (.single hvalue)
  obtain ⟨hneeded, hbrings⟩ := referencedImports_of_resolveText hrun hget hmodel
  refine ⟨api, t, hrun, hget, hmodel, hproperty, hname, hpath, hneeded 3 hproperty 1 hpath,
    himports, fun hmaps => ?_⟩
  have hmem := (hbrings _).mpr hmaps
  rw [himports] at hmem
  exact absurd hmem (by decide)

end ApiTypes
