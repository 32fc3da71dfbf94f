import ApiTypes.Proofs.Mapping.Collected
import ApiTypes.Proofs.Walk.Once
import ApiTypes.Proofs.Walk.Operations
import ApiTypes.Report

/-!
# The annotations of a use

Rules for parameters and responses add annotations to a use alone. Every use that is told has those
of the rules that match its schema, in the order in which the rules are declared, where a rule is
left out if it has the source and the annotation of an earlier one (`usageAnnotations_of_run`).
Rules with different sources may match one schema, so an annotation stands there more than once
exactly if rules with different sources have it. A report leaves out such repetitions
(`TypeReport.annotations_ofUse`).
-/

set_option autoImplicit false

namespace ApiTypes

namespace Resolver

variable {r : Resolver} {path : Option String} {use : Use} {n : SchemaNode} {name : String}

/-- The rules that add annotations to a schema for a use alone, in the order of their
declaration. -/
def usageRules (r : Resolver) (path : Option String) (use : Use) (features : SchemaFeatures) :
    List Rule :=
  match use.section? with
  | some place => Lookup.annotating r.mappings path place features
  | none => []

theorem usageAnnotations_eq (features : SchemaFeatures) :
    r.usageAnnotations path use features
      = ((r.usageRules path use features).eraseDupsBy Lookup.sameAnnotation).filterMap
          (fun rule => rule.annotation) := by
  rw [usageAnnotations, usageRules]
  cases use with
  | schema =>
      -- Schemas of components and properties are no uses, so nothing is added to them.
      rw [Lookup.usageAnnotateRules_schema]
      rfl
  | parameter name => rw [Lookup.usageAnnotateRules_eq rfl]; rfl
  | response contentType => rw [Lookup.usageAnnotateRules_eq rfl]; rfl

/-- The annotations of a use are those of the rules that match its schema, references followed. They
are without repetitions exactly if rules with the same annotation have the same source. -/
def UsageAnnotated (r : Resolver) (path : Option String) (use : Use) (n : SchemaNode)
    (annotations : List Annotation) : Prop :=
  ∃ name w, r.enter ⟨n, name, false⟩ = .ok w ∧
    annotations
      = ((r.usageRules path use w.features).eraseDupsBy Lookup.sameAnnotation).filterMap
          (fun rule => rule.annotation) ∧
    ((annotations.Pairwise fun x y => x.same y = false) ↔
      Lookup.OneSource (r.usageRules path use w.features))

end Resolver

namespace Answered

variable {r : Resolver} {path : Option String} {use : Use} {n : SchemaNode} {name : String}
  {s s' : WalkState} {told : Resolved}

/-- The schema of a use that is told can be reached. -/
theorem exists_enter (h : Answered r (.use path use n name) s (.ok told) s') :
    ∃ w, r.enter ⟨n, name, false⟩ = .ok w := by
  cases h with
  | shared hin => exact ⟨_, hin⟩
  | block hin => exact ⟨_, hin⟩
  | wrapper hin => exact ⟨_, hin⟩

theorem usageAnnotated (h : Answered r (.use path use n name) s (.ok told) s') :
    r.UsageAnnotated path use n told.annotations := by
  obtain ⟨w, hw⟩ := h.exists_enter
  have heq := (h.annotations_eq hw rfl).trans (Resolver.usageAnnotations_eq w.features)
  refine ⟨name, w, hw, heq, ?_⟩
  rw [heq]
  exact Lookup.pairwise_annotations_iff _

end Answered

theorem Resolver.usageAnnotated_of_resolveUse {r : Resolver} {path : Option String} {use : Use}
    {n : SchemaNode} {name : String} {s s' : WalkState} {told : Resolved}
    (h : (r.resolveUse path use n name).outcome s = (.ok told, s')) :
    r.UsageAnnotated path use n told.annotations := by
  have hans := answered_ask (r := r) (.use path use n name) s
  rw [ask, h] at hans
  exact hans.usageAnnotated

/-! ## Reports -/

/-- A report tells of a use every annotation that the type does not have itself once. -/
theorem TypeReport.annotations_ofUse (types : TypeStore) (id : TypeId) (usage : List Annotation) :
    (ofUse types id usage).annotations
      = (types.annotations id
          ++ (usage.filter fun a => !(types.annotations id).any fun b => b.same a).eraseDupsBy
              Annotation.same).map Annotation.render := by
  rw [ofUse]
  refine congrArg (List.map Annotation.render) ?_
  exact foldl_addNew_eq_append (fun _ _ => rfl) Annotation.same_comm usage _

/-! ## Runs -/

/-- **What is told of the annotations of a use.** Every use that is told, at any state of a walk and
in every run that succeeds, has the annotations of the rules that match its schema, where rules with
the same source and the same annotation count once. So they are without repetitions if and only if
no two rules with different sources that match the schema have the same annotation. -/
theorem usageAnnotations_of_run (r : Resolver) :
    (∀ path use n name s told s', (r.resolveUse path use n name).outcome s = (.ok told, s') →
      r.UsageAnnotated path use n told.annotations) ∧
    ∀ api, r.run = .ok api → ∃ es, r.description.endpoints = .ok es ∧
      List.Forall₂
        (Endpoint.Told fun path use n told => r.UsageAnnotated (some path) use n told.annotations)
        (es.filter fun e => !Lookup.isExcluded r.mappings e.path) api.endpoints := by
  refine ⟨fun path use n name s told s' h => Resolver.usageAnnotated_of_resolveUse h, ?_⟩
  intro api hrun
  refine Resolver.told_of_run (fun path use n name s told s' h _ => ⟨trivial, ?_⟩) hrun
  exact Resolver.usageAnnotated_of_resolveUse h

/-- A document with a parameter that is a date. -/
def dateDocument : Value :=
  .object [("openapi", .str "3.0.0"),
    ("info", .object [("title", .str "a"), ("version", .str "b")]),
    ("paths", .object [("/a", .object [("get", .object [
      ("parameters", .list [.object [("name", .str "p"), ("in", .str "query"),
        ("schema", .object [("type", .str "string"), ("format", .str "date")])]]),
      ("responses", .object [])])])])]

/-- A mapping document with rules that add one annotation to texts and to dates. -/
def dateMapping : Value :=
  .object [("openapi-processor-mapping", .str "v2"), ("map", .object [
    ("parameters", .list [.object [("type", .str "string @ io.Ann")],
      .object [("type", .str "string:date @ io.Ann")]])])]

/-- Both rules match the parameter, which has the annotation twice. -/
theorem usageAnnotations_of_dateDocument :
    ∃ d m api, Description.ofValue .early dateDocument = .ok d ∧
      Mapping.ofValue dateMapping = .ok m ∧
      (Resolver.mk d { mappings := [m] }).run = .ok api ∧
      (api.endpoints.flatMap (·.parameters)).flatMap (fun p => p.annotations.map (·.typeName))
        = ["io.Ann", "io.Ann"] ∧
      ∃ es, d.endpoints = .ok es ∧ List.Forall₂
        (Endpoint.Told fun path use n told =>
          (Resolver.mk d { mappings := [m] }).UsageAnnotated (some path) use n told.annotations)
        (es.filter fun e => !Lookup.isExcluded [m] e.path) api.endpoints := by
  obtain ⟨d, hread, hfacts⟩ := exists_of_map_toOption
    (show (Description.ofValue .early dateDocument).toOption.map (fun d =>
        (Mapping.ofValue dateMapping).toOption.map fun m =>
          (Resolver.mk d { mappings := [m] }).run.toOption.map fun api =>
            (api.endpoints.flatMap (·.parameters)).flatMap fun p =>
              p.annotations.map (·.typeName))
      = some (some (some ["io.Ann", "io.Ann"])) by decide +kernel)
  obtain ⟨m, hmapping, hfacts⟩ := exists_of_map_toOption hfacts
  obtain ⟨api, hrun, hnames⟩ := exists_of_map_toOption hfacts
  exact ⟨d, m, api, hread, hmapping, hrun, hnames, (usageAnnotations_of_run _).2 api hrun⟩

end ApiTypes
