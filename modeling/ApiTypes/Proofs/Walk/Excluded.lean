import ApiTypes.Proofs.OpenApi.Without
import ApiTypes.Proofs.Resolve.SameReferences
import ApiTypes.Proofs.Walk.Orders

/-!
# Paths that are left out

A mapping document may leave a path out. Its operations are then not resolved, and nothing in them
has a say in the result: a run is the one on the document without the path (`run_leftOut`), to the
last slot. This is so if the operations of the path can be told. They are told before any of them is
left out, so a path that is left out and refers to something that is not there makes the run fail
all the same, where the run on the document without the path may succeed.
-/

set_option autoImplicit false

namespace ApiTypes

namespace Resolver

variable {r : Resolver} {d : Description} {options : Options} {path : String}

/-! ## Runs and what is known of the operations -/

/-- A run of which it is given whether the operations are known. -/
def runOn (r : Resolver) (known : Except Error (List Endpoint)) : Except Error ResolvedApi :=
  match (r.resolveComponents r.description.components).outcome {} with
  | (.error e, _) => .error e
  | (.ok models, s₁) =>
      match known with
      | .error e => .error e
      | .ok es =>
          match (r.resolveEndpoints es).outcome s₁ with
          | (.error e, _) => .error e
          | (.ok endpoints, s) => .ok ⟨s.types, models, endpoints⟩

theorem run_eq_runOn : r.run = r.runOn r.description.endpoints :=
  run_eq_runInOrder

/-- A run without a path differs in nothing but the operations. -/
theorem run_without :
    (Resolver.mk (d.without path) options).run
      = (Resolver.mk d options).runOn (d.without path).endpoints := by
  have hsame := d.sameReferences_without path
  rw [run_eq_runOn, runOn, runOn, hsame.resolveComponents_eq]
  simp only [hsame.resolveEndpoints_eq]
  rfl

/-- Where the operations are not known, a run fails with the reason, unless a component made it fail
before. -/
theorem runOn_error (r : Resolver) (e : Error) :
    ∃ e', r.runOn (.error e) = .error e' ∧ (e' = e ∨ ∀ known, r.runOn known = .error e') := by
  simp only [runOn]
  cases (r.resolveComponents r.description.components).outcome {} with
  | mk told s₁ =>
      cases told with
      | error e' => exact ⟨e', rfl, Or.inr fun _ => rfl⟩
      | ok models => exact ⟨e, rfl, Or.inl rfl⟩

/-- Operations of a path that is left out may as well be left out before. -/
theorem resolveEndpoints_filter (h : Lookup.isExcluded r.mappings path = true)
    (es : List Endpoint) :
    r.resolveEndpoints (es.filter fun e => e.path ≠ path) = r.resolveEndpoints es := by
  induction es with
  | nil => rfl
  | cons e rest ih =>
      by_cases hpath : e.path = path
      · rw [List.filter_cons_of_neg (by simp [hpath]), ih]
        conv_rhs => rw [resolveEndpoints, if_pos (by rw [hpath]; exact h)]
      · rw [List.filter_cons_of_pos (by simp [hpath]), resolveEndpoints, resolveEndpoints, ih]

theorem runOn_filter (h : Lookup.isExcluded r.mappings path = true) (es : List Endpoint) :
    r.runOn (.ok (es.filter fun e => e.path ≠ path)) = r.runOn (.ok es) := by
  simp only [runOn, resolveEndpoints_filter h]

/-! ## Paths that are left out -/

/-- **A path that is left out may as well not be there, if its operations can be told.** -/
theorem run_without_eq (h : Lookup.isExcluded options.mappings path = true)
    (htold : ∀ item, (path, item) ∈ d.paths → ∃ es, d.pathEndpoints path item = .ok es) :
    (Resolver.mk (d.without path) options).run = (Resolver.mk d options).run := by
  rw [run_without, run_eq_runOn]
  cases hes : d.endpoints with
  | ok es =>
      rw [Description.endpoints_without hes]
      exact runOn_filter (r := ⟨d, options⟩) h es
  | error e =>
      rcases Description.endpoints_without_error path hes with hes' | ⟨item, hmem, hfails⟩
      · rw [hes']
      · obtain ⟨es, hok⟩ := htold item hmem
        exact absurd (hok.symm.trans hfails) nofun

/-- A path whose operations cannot be told makes a run fail, even if it is left out. The run
without the path fails with the same error, or it is a path of this name that is to blame. -/
theorem run_fails_of_path {item : PathItem} {e : Error} (hmem : (path, item) ∈ d.paths)
    (hfails : d.pathEndpoints path item = .error e) :
    ∃ e', (Resolver.mk d options).run = .error e' ∧
      ((Resolver.mk (d.without path) options).run = .error e' ∨
        ∃ item, (path, item) ∈ d.paths ∧ d.pathEndpoints path item = .error e') := by
  obtain ⟨e₁, hes⟩ := Description.endpoints_fails hmem hfails
  rw [run_without, run_eq_runOn]
  obtain ⟨e₂, hrun, hwhy⟩ := runOn_error ⟨d, options⟩ e₁
  simp only [hes]
  refine ⟨e₂, hrun, ?_⟩
  rcases hwhy with rfl | hall
  · refine (Description.endpoints_without_error path hes).imp_left fun hes' => ?_
    rw [hes']
    exact hrun
  · exact Or.inl (hall _)

end Resolver

/-- **When leaving a path out is deleting it.** A document can be read without any of its paths. A
run that leaves the path out is the run on this document, with the same types in the same slots, the
same models and the same operations, or the same error, whenever the operations of the path can be
told. If they cannot, the run fails: with the error of the run without the path, or with that of the
path itself. -/
theorem run_leftOut {dialect : Dialect} {members : List (String × Value)} {d : Description}
    {options : Options} {path : String}
    (hread : Description.ofValue dialect (.object members) = .ok d)
    (hexcluded : Lookup.isExcluded options.mappings path = true) :
    Description.ofValue dialect ((Value.object members).withoutPath path) = .ok (d.without path) ∧
    ((∀ item, (path, item) ∈ d.paths → ∃ es, d.pathEndpoints path item = .ok es) →
      (Resolver.mk (d.without path) options).run = (Resolver.mk d options).run) ∧
    (∀ item e, (path, item) ∈ d.paths → d.pathEndpoints path item = .error e →
      ∃ e', (Resolver.mk d options).run = .error e' ∧
        ((Resolver.mk (d.without path) options).run = .error e' ∨
          ∃ item, (path, item) ∈ d.paths ∧ d.pathEndpoints path item = .error e')) :=
  ⟨Description.ofValue_withoutPath hread, Resolver.run_without_eq hexcluded,
    fun _ _ hmem hfails => Resolver.run_fails_of_path hmem hfails⟩

/-- The members of a document with a path that refers to a response that is not there. -/
def goneMembers : List (String × Value) :=
  [("openapi", .str "3.0.0"),
    ("info", .object [("title", .str "a"), ("version", .str "b")]),
    ("paths", .object [
      ("/gone", .object [("get", .object [("responses", .object [
        ("200", .object [("$ref", .str "#/components/responses/Gone")])])])]),
      ("/pets", .object [("get", .object [("responses", .object [])])])]),
    ("components", .object [("schemas", .object [("Pet", .object [("type", .str "object")])])])]

/-- Options that leave this path out. -/
def goneOptions : Options where
  mappings := [⟨"v2", false, {}, {}, .ofList [("/gone", { exclude := true })]⟩]

/-- The path makes the run fail, though it is left out; without it the run succeeds. -/
theorem run_leftOut_goneMembers :
    ∃ d, Description.ofValue .early (.object goneMembers) = .ok d ∧
      Description.ofValue .early ((Value.object goneMembers).withoutPath "/gone")
        = .ok (d.without "/gone") ∧
      (∃ e, (Resolver.mk d goneOptions).run = .error e) ∧
      ∃ api, (Resolver.mk (d.without "/gone") goneOptions).run = .ok api := by
  obtain ⟨d, hread, hfacts⟩ := exists_of_map_toOption
    (show (Description.ofValue .early (.object goneMembers)).toOption.map (fun d =>
        (d.paths.map fun entry => (entry.1, (d.pathEndpoints entry.1 entry.2).toOption.isSome),
          (Resolver.mk (d.without "/gone") goneOptions).run.toOption.map fun _ => ()))
      = some ([("/gone", false), ("/pets", true)], some ()) by decide +kernel)
  obtain ⟨hpaths, hrun⟩ := Prod.mk.inj hfacts
  obtain ⟨api, hrun, _⟩ := exists_of_map_toOption hrun
  obtain ⟨hwithout, _, hfails⟩ := run_leftOut hread
    (show Lookup.isExcluded goneOptions.mappings "/gone" = true by decide +kernel)
  refine ⟨d, hread, hwithout, ?_, api, hrun⟩
  obtain ⟨⟨name, item⟩, hmem, hitem⟩ := List.mem_map.mp
    (show ("/gone", false) ∈ d.paths.map _ by rw [hpaths]; exact List.mem_cons_self)
  obtain ⟨rfl, hnone⟩ := Prod.mk.inj hitem
  cases htold : d.pathEndpoints "/gone" item with
  | ok es =>
      have htold' : (d.pathEndpoints "/gone" item).toOption.isSome = false := hnone
      rw [htold] at htold'
      cases htold'
  | error e =>
      obtain ⟨e', hfails, _⟩ := hfails item e hmem htold
      exact ⟨e', hfails⟩

end ApiTypes
