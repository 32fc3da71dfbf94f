import ApiTypes.Proofs.Mapping.Collected
import ApiTypes.Proofs.OpenApi.Loading
import ApiTypes.Proofs.Walk.Settled

/-!
# The annotations of a slot

The annotations that a schema has by itself are those of the rules that match it, in the order in
which the rules are declared, and then those for its constraints (`Options.annotationsOf`). They
depend on the schema and its key, on the options, and on the scope, and on nothing that happens
during the walk. At the end of a run that succeeds, every slot that is remembered has exactly these
annotations, without those that are repeated (`annotations_of_run`).
-/

set_option autoImplicit false

namespace ApiTypes

/-! ## What rules may look at -/

namespace SchemaKey

/-- The name of the component that a key belongs to. -/
def componentName? (key : SchemaKey) : Option String :=
  match key.segments with
  | ["#", "components", "schemas", name] => if key = component name then some name else none
  | _ => none

theorem componentName?_eq_some_iff {key : SchemaKey} {name : String} :
    key.componentName? = some name ↔ key = component name := by
  constructor
  · intro h
    unfold componentName? at h
    split at h
    · split at h
      · rename_i hkey
        cases h
        exact hkey
      · cases h
    · cases h
  · rintro rfl
    rw [componentName?, segments_component]
    exact if_pos rfl

end SchemaKey

/-- What rules may look at in a node: its type, its format, and its name if it is a component. -/
def SchemaNode.ownFeatures (n : SchemaNode) : SchemaFeatures where
  name := n.key.componentName?
  type := n.type
  format := n.format

namespace Visit.Proper

variable {d : Description} {v : Visit}

theorem componentName?_eq (hv : v.Proper d) :
    v.node.key.componentName? = if v.isNamed then some v.name else none := by
  cases hnamed : v.isNamed with
  | true =>
      rw [if_pos rfl, SchemaKey.componentName?_eq_some_iff]
      exact Description.key_of_mem_components (hv.named hnamed)
  | false =>
      cases hname : v.node.key.componentName? with
      | none => rfl
      | some name =>
          exact absurd (SchemaKey.componentName?_eq_some_iff.mp hname) (hv.unnamed hnamed name)

/-- A key belongs to a component exactly if its node is one. -/
theorem componentName?_eq_some_iff (hv : v.Proper d) (name : String) :
    v.node.key.componentName? = some name ↔ (name, v.node) ∈ d.components := by
  refine ⟨fun h => ?_, fun h =>
    SchemaKey.componentName?_eq_some_iff.mpr (Description.key_of_mem_components h)⟩
  rw [hv.componentName?_eq] at h
  split at h
  · rename_i hnamed
    cases h
    exact hv.named hnamed
  · cases h

theorem features_eq (hv : v.Proper d) : v.features = v.node.ownFeatures := by
  rw [Visit.features, SchemaNode.features, SchemaNode.ownFeatures, hv.componentName?_eq]

end Visit.Proper

/-! ## The annotations of a schema -/

namespace Options

/-- The annotations that a schema has on a scope: those of the rules that match it, in the order of
their declaration, and then those for its constraints. -/
def annotationsOf (o : Options) (scope : Option String) (n : SchemaNode) : List Annotation :=
  (Lookup.annotating o.mappings scope .types n.ownFeatures).filterMap (fun rule => rule.annotation)
    ++ n.constraints.annotations o.validation

/-- On a path a schema has the annotations that it has on the scope of the path. -/
theorem annotationsOf_scope (o : Options) (path : Option String) (n : SchemaNode) :
    o.annotationsOf path n
      = o.annotationsOf (path.filter (Lookup.hasPathTypes o.mappings)) n := by
  rw [annotationsOf, annotationsOf, Lookup.annotating, Lookup.annotating,
    Lookup.declared_scope path]

end Options

namespace Resolver

variable {r : Resolver}

/-- The annotations of a node are collected one by one, from rules without repetitions. What is
collected are those that the schema has by itself, each once. -/
theorem foldl_nodeAnnotations (scope : Option String) {v : Visit} (hv : v.Proper r.description) :
    (r.nodeAnnotations scope v.node v.features).foldl TypeStore.addAnnotation []
      = (r.options.annotationsOf scope v.node).eraseDupsBy Annotation.same := by
  rw [TypeStore.foldl_addAnnotation, nodeAnnotations, Lookup.annotateRules_eq, hv.features_eq]
  exact Lookup.eraseDupsBy_annotations _ _

/-- What a run that succeeds remembers for a schema has the annotations of the schema. -/
theorem annotations_of_lookup (hd : r.description.Tidy) {api : ResolvedApi} (h : r.run = .ok api)
    {key : MemoKey} {id : Nat} (hk : api.types.lookup key = some id) :
    ∃ n, r.description.node? key.schema = some n ∧ n.key = key.schema ∧
      (∀ name, n.ownFeatures.name = some name ↔ (name, n) ∈ r.description.components) ∧
      api.types.annotations id
        = (r.options.annotationsOf key.scope n).eraseDupsBy Annotation.same := by
  obtain ⟨s, hs, htypes⟩ := settled_of_run hd h
  rw [htypes] at hk ⊢
  obtain ⟨w, hw⟩ := hs.known key id hk
  have hkey : w.node.key = key.schema := congrArg MemoKey.schema hw.key_eq
  refine ⟨w.node, ?_, hkey, hw.holds.componentName?_eq_some_iff, ?_⟩
  · rw [← hkey]
    exact hw.holds.inPlace
  · rw [hw.annotations_eq]
    exact foldl_nodeAnnotations key.scope hw.holds

end Resolver

/-! ## Runs -/

/-- Runs with the same rules and the same flavour of annotations give a schema the same annotations
on a scope, whatever else is in the two descriptions and however the runs come to the schema. -/
theorem Resolver.annotations_agree {r r' : Resolver} (hd : r.description.Tidy)
    (hd' : r'.description.Tidy) (hmappings : r'.options.mappings = r.options.mappings)
    (hvalidation : r'.options.validation = r.options.validation) {api api' : ResolvedApi}
    (h : r.run = .ok api) (h' : r'.run = .ok api') {key : MemoKey} {id id' : Nat}
    (hk : api.types.lookup key = some id) (hk' : api'.types.lookup key = some id')
    (hnode : r'.description.node? key.schema = r.description.node? key.schema) :
    api'.types.annotations id' = api.types.annotations id := by
  obtain ⟨n, hn, _, _, hannotations⟩ := annotations_of_lookup hd h hk
  obtain ⟨n', hn', _, _, hannotations'⟩ := annotations_of_lookup hd' h' hk'
  have hsame : n' = n := Option.some.inj (hn'.symm.trans (hnode.trans hn))
  rw [hannotations, hannotations', hsame, Options.annotationsOf, Options.annotationsOf, hmappings,
    hvalidation]

/-- **After a run that succeeds every slot that is remembered for a schema has exactly the
annotations that the schema has on the scope under which it is remembered**, without those that are
repeated. Rules match it by name exactly if it is a component, and it has the same annotations on
all paths of a scope. -/
theorem annotations_of_run {dialect : Dialect} {v : Value} {d : Description} {options : Options}
    {api : ResolvedApi} (hv : v.Tidy) (hread : Description.ofValue dialect v = .ok d)
    (h : (Resolver.mk d options).run = .ok api) {key : MemoKey} {id : Nat}
    (hk : api.types.lookup key = some id) :
    ∃ n, d.node? key.schema = some n ∧ n.key = key.schema ∧
      (∀ name, n.ownFeatures.name = some name ↔ (name, n) ∈ d.components) ∧
      api.types.annotations id
        = (options.annotationsOf key.scope n).eraseDupsBy Annotation.same ∧
      ∀ path, (Resolver.mk d options).scopeOf path = key.scope →
        options.annotationsOf path n = options.annotationsOf key.scope n := by
  have hd := Description.tidy_of_ofValue hv hread
  obtain ⟨n, hn, hkey, hname, hannotations⟩ := Resolver.annotations_of_lookup hd h hk
  refine ⟨n, hn, hkey, hname, hannotations, fun path hpath => ?_⟩
  rw [options.annotationsOf_scope path, ← hpath]
  rfl

/-- A document with a parameter whose schema is a component with constraints. -/
def tagsDocument : Value :=
  .object [("openapi", .str "3.0.0"),
    ("info", .object [("title", .str "a"), ("version", .str "b")]),
    ("paths", .object [("/pets", .object [("get", .object [
      ("parameters", .list [.object [("name", .str "tags"), ("in", .str "query"),
        ("schema", .object [("$ref", .str "#/components/schemas/Tags")])]]),
      ("responses", .object [])])])]),
    ("components", .object [("schemas", .object [("Tags", .object [("type", .str "array"),
      ("minItems", .num (.int 1)), ("items", .object [("type", .str "string")])])])])]

/-- A rule that adds an annotation to schemas of a type or a name. -/
def annotateRule (source : String) (a : Annotation) : Rule where
  kind := .annotate
  source := ⟨source, none⟩
  annotation := some a

/-- Options with rules for arrays, one of which adds what the constraints add, and with rules for a
component, one of them on a path. -/
def tagsOptions : Options where
  validation := .jakarta
  mappings := [⟨"v2", false, {}, { types :=
      [annotateRule "array" { typeName := "io.List" },
        annotateRule "Tags" { typeName := "io.List" },
        annotateRule "array"
          (.withArgument { typeName := "jakarta.validation.constraints.Size" } "min" "1")] },
    .ofList [("/pets", { rules := { types := [annotateRule "Tags" { typeName := "io.Tags" }] } })]⟩]

/-- On the path the component has the rule of the path as well, and every annotation once. -/
theorem annotations_of_tagsDocument :
    tagsDocument.Tidy ∧ ∃ d api n, Description.ofValue .early tagsDocument = .ok d ∧
      (Resolver.mk d tagsOptions).run = .ok api ∧
      api.types.lookup ⟨some "/pets", .component "Tags"⟩ = some 3 ∧
      d.node? (.component "Tags") = some n ∧
      api.types.annotations (3 : Nat)
        = (tagsOptions.annotationsOf (some "/pets") n).eraseDupsBy Annotation.same ∧
      (api.types.annotations (3 : Nat)).map (·.typeName)
        = ["io.Tags", "io.List", "jakarta.validation.constraints.Size"] := by
  have htidy : tagsDocument.Tidy := by decide +kernel
  obtain ⟨d, hread, hfacts⟩ := exists_of_map_toOption
    (show (Description.ofValue .early tagsDocument).toOption.map (fun d =>
        (Resolver.mk d tagsOptions).run.toOption.map fun api =>
          (api.types.lookup ⟨some "/pets", .component "Tags"⟩,
            (api.types.annotations (3 : Nat)).map (·.typeName)))
      = some (some (some 3, ["io.Tags", "io.List", "jakarta.validation.constraints.Size"]))
      by decide +kernel)
  obtain ⟨api, hrun, hfacts⟩ := exists_of_map_toOption hfacts
  obtain ⟨hlookup, hnames⟩ := Prod.mk.inj hfacts
  obtain ⟨n, hn, _, _, hannotations, _⟩ := annotations_of_run htidy hread hrun hlookup
  exact ⟨htidy, d, api, n, hread, hrun, hlookup, hn, hannotations, hnames⟩

end ApiTypes
