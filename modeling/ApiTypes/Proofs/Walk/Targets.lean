import ApiTypes.Proofs.Mapping.Parsed
import ApiTypes.Proofs.Walk.Raised

/-!
# Rules with targets

A resolver takes any list of rules, also such that give a type and have no target; it ends with an
error when it comes to one. With rules that were read from documents this never happens, nor does a
walk get too deep (`readRules_sound`), and every rule that is found to add an annotation adds one.
-/

set_option autoImplicit false

namespace ApiTypes

/-- An error that is told as a general one: of a rule without target, or of a walk that got too
deep. -/
def Error.General : Error → Prop
  | noTarget _ => True
  | tooDeep _ => True
  | _ => False

namespace Resolver

variable {r : Resolver} {path : Option String} {e : Error}

/-! ## Rules that were read -/

/-- With sound rules no error is one of a rule without target. -/
theorem Raises.ne_noTarget (h : r.Raises path e) (hsound : Lookup.AllSound r.mappings)
    (source : String) : ¬ e = .noTarget source := by
  have hgives : ∀ {rule : Rule}, rule.GivesType → ¬ rule.target = none := by
    intro rule hrule hnone
    have hsome := hrule.target
    rw [hnone] at hsome
    cases hsome
  rintro rfl
  cases h with
  | strayed _ he => exact ofReference_of_enter he
  | demand _ _ hdemand =>
      cases faulty_of_demand hdemand with
      | noTarget hrule hnone => exact hgives (hsound.of_typeRule? hrule) hnone
  | use _ _ hdemand =>
      cases faulty_of_useDemand hdemand with
      | noTarget hrule hnone =>
          rcases hrule with hrule | hrule
          · exact hgives (hsound.of_useRule? hrule) hnone
          · exact hgives (hsound.of_usageTypeRule? hrule) hnone

/-- **A run with sound rules ends with no general error.** -/
theorem run_not_general (hd : r.description.Tidy) (hsound : Lookup.AllSound r.mappings)
    (h : r.run = .error e) : ¬ e.General := by
  intro hgeneral
  cases e with
  | noTarget source =>
      rcases raises_of_run hd h with hfails | ⟨q, s, s', _, _, hraises⟩
      · cases hfails
      · exact hraises.ne_noTarget hsound source rfl
  | tooDeep text => exact run_ne_tooDeep hd text h
  | _ => cases hgeneral

end Resolver

/-- **Rules that were read never run out of target.** Whatever documents the rules of a run are
read from, every rule of every scope is sound, and no list for schemas has a rule for a name or a
content type. So no description makes the run end with a general error, and of the rules that are
found to add annotations to a schema each one adds its annotation. -/
theorem readRules_sound {vs : List Value} {options : Options}
    (h : vs.mapM Mapping.ofValue = .ok options.mappings) :
    (∀ m ∈ options.mappings, ∀ s ∈ m.scopes, s.Sound) ∧
    (∀ text e, resolveText text options = .error e → ¬ e.General) ∧
    ∀ path use features,
      (Lookup.annotateRules options.mappings path use features).map (·.annotation?)
        = ((Lookup.annotateRules options.mappings path use features).filterMap
            (·.annotation?)).map some ∧
      (Lookup.usageAnnotateRules options.mappings path use features).map (·.annotation?)
        = ((Lookup.usageAnnotateRules options.mappings path use features).filterMap
            (·.annotation?)).map some := by
  have hsound : Lookup.AllSound options.mappings := by
    intro m hm
    obtain ⟨v, _, hv⟩ := exists_of_mem_mapM h hm
    exact Mapping.sound_of_ofValue hv
  refine ⟨hsound, fun text e hrun => ?_, fun path use features => ⟨?_, ?_⟩⟩
  · unfold resolveText at hrun
    split at hrun
    · rename_i d hload
      have hd := Description.tidy_of_load hload
      exact Resolver.run_not_general (r := ⟨d, options⟩) hd hsound hrun
    · cases hrun
      exact id
  · exact Lookup.map_annotation?_eq fun rule hrule =>
      hsound.of_mem_collectAnnotateRules (Lookup.withinScope_candidates use) hrule
  · exact Lookup.map_annotation?_eq fun rule hrule =>
      hsound.of_mem_collectAnnotateRules (Lookup.withinScope_useRules use) hrule

/-- A mapping document with rules of all kinds, one of them on a path. -/
def petMapping : Value :=
  .object [("openapi-processor-mapping", .str "v2"), ("map", .object [
    ("types", .list [.object [("type", .str "Pet => io.Pet")],
      .object [("type", .str "object @ io.Marked")]]),
    ("parameters", .list [.object [("name", .str "limit"), ("to", .str "int")]]),
    ("paths", .object [("/pets", .object [
      ("responses", .list [.object [("content", .str "text/plain => io.Text")]])])])])]

theorem readRules_sound_petMapping :
    ∃ m, Mapping.ofValue petMapping = .ok m ∧
      m.scopes.map (fun s => s.all.map (·.kind)) = [[.type, .annotate, .use], [.use]] ∧
      (∀ s ∈ m.scopes, s.Sound) ∧
      (∀ e, resolveText listsOfNodes { mappings := [m] } = .error e → ¬ e.General) ∧
      (Lookup.annotateRules [m] none .schema { type := some "object" }).map (·.annotation?)
        = ((Lookup.annotateRules [m] none .schema { type := some "object" }).filterMap
            (·.annotation?)).map some := by
  obtain ⟨m, hm, hkinds⟩ := exists_of_map_toOption (show (Mapping.ofValue petMapping).toOption.map
    (fun m => m.scopes.map fun s => s.all.map (·.kind)) = some [[.type, .annotate, .use], [.use]]
      by decide +kernel)
  have hread : [petMapping].mapM Mapping.ofValue = .ok [m] := by
    rw [List.mapM_cons, hm]
    rfl
  obtain ⟨hsound, hrun, hadds⟩ := @readRules_sound [petMapping] { mappings := [m] } hread
  exact ⟨m, hm, hkinds, hsound m List.mem_cons_self, hrun listsOfNodes, (hadds _ _ _).1⟩

end ApiTypes
