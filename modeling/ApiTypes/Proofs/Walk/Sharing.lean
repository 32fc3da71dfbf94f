import ApiTypes.Proofs.Walk.Globals
import ApiTypes.Proofs.Walk.Operations

/-!
# When a use shares the type of a component

A schema that is used by reference has the type of its component, unless a rule gives the use a type
of its own. What is remembered for the components is remembered for no path, so the type is that of
the component if the use looks there: **if and only if no document has rules for schemas on the
path** (`ResolvedApi.shares_of_run`). On such a path every lookup for schemas gives what it gives
without a path.
-/

set_option autoImplicit false

namespace ApiTypes

/-! ## What is remembered -/

namespace Resolver

variable {r : Resolver} {path : Option String} {v : Visit} {key : MemoKey} {id : Nat}

/-- A schema is settled on the scope of its path. -/
theorem scope_of_lookup_settle {types : TypeStore} {i : Nat}
    (hl : (r.settle path v i types).lookup key = some id) :
    types.lookup key = some id ∨ key.scope = r.scopeOf path := by
  rw [lookup_settle] at hl
  split at hl
  · rename_i hkey
    exact Or.inr (congrArg MemoKey.scope hkey)
  · exact Or.inl hl

/-- A schema that may be found while it is being resolved is on the scope of its path. -/
theorem scope_of_lookup_start {s : WalkState}
    (hl : (s.start (r.keyOf path v)).types.lookup key = some id) :
    s.types.lookup key = some id ∨ key.scope = r.scopeOf path := by
  rw [WalkState.types_start, TypeStore.lookup_remember] at hl
  split at hl
  · rename_i hkey
    exact Or.inr (congrArg MemoKey.scope hkey)
  · exact Or.inl hl

end Resolver

namespace Walked

variable {r : Resolver} {path : Option String} {depth : Nat} {s s' : WalkState}

/-- A schema that is resolved is remembered. -/
theorem remembered {v : Visit} {id : TypeId} (h : Walked r path depth (.one v) s (.ok id) s') :
    ∃ w, r.enter v = .ok w ∧ s'.types.lookup (r.keyOf path w) = some id := by
  cases h with
  | found hv hl => exact ⟨_, hv, hl⟩
  | block hin hd =>
      refine ⟨_, hin.enter_eq, ?_⟩
      rw [WalkState.types_withTypes, Resolver.lookup_settle, if_pos rfl]
  | wrapper hin hd _ =>
      refine ⟨_, hin.enter_eq, ?_⟩
      rw [Resolver.types_settled, Resolver.lookup_settle, if_pos rfl]
  | composite hin hd _ =>
      refine ⟨_, hin.enter_eq, ?_⟩
      rw [Resolver.types_settled, Resolver.lookup_settle, if_pos rfl]

/-- **A call remembers nothing but on the scope of its path.** -/
theorem scope_of_lookup {c : Call} {out : Except Error c.Out} (h : Walked r path depth c s out s')
    {key : MemoKey} {id : Nat} (hl : s'.types.lookup key = some id) :
    s.types.lookup key = some id ∨ key.scope = r.scopeOf path := by
  induction h with
  | deep => exact Or.inl hl
  | strayed hv => exact Or.inl hl
  | found hv hl' => exact Or.inl hl
  | cyclic hv hl' hp => exact Or.inl hl
  | fault hin hd => exact Or.inl hl
  | block hin hd =>
      rcases Resolver.scope_of_lookup_settle hl with hl | hscope
      · rw [TypeStore.lookup_addBlock] at hl
        exact Or.inl hl
      · exact Or.inr hscope
  | wrapperFails hin hd _ ih => exact ih hl
  | wrapper hin hd _ ih =>
      rcases Resolver.scope_of_lookup_settle hl with hl | hscope
      · exact ih hl
      · exact Or.inr hscope
  | compositeFails hin hd _ ih =>
      rcases ih hl with hl | hscope
      · exact Resolver.scope_of_lookup_start hl
      · exact Or.inr hscope
  | composite hin hd _ ih =>
      rcases Resolver.scope_of_lookup_settle hl with hl | hscope
      · rcases ih hl with hl | hscope
        · exact Resolver.scope_of_lookup_start hl
        · exact Or.inr hscope
      · exact Or.inr hscope
  | nil => exact Or.inl hl
  | headFails _ ih => exact ih hl
  | tailFails _ _ ih₁ ih₂ =>
      rcases ih₂ hl with hl | hscope
      · exact ih₁ hl
      · exact Or.inr hscope
  | cons _ _ ih₁ ih₂ =>
      rcases ih₂ hl with hl | hscope
      · exact ih₁ hl
      · exact Or.inr hscope

end Walked

/-! ## When the components are resolved -/

namespace Description

/-- A component that is in place is the one that is found under its name. -/
theorem findValue?_components {d : Description} {name : String} {n : SchemaNode}
    (h : (name, n) ∈ d.components) (hroot : d.IsRoot n) :
    findValue? name d.components = some n := by
  rw [IsRoot, key_of_mem_components h, SchemaKey.segments_component] at hroot
  simp only [root?] at hroot
  have hmap : findValue? name d.components
      = (findValue? name d.schemas).map fun s => ⟨SchemaKey.component name, s⟩ :=
    SchemaNode.findValue?_map (fun name s => (⟨SchemaKey.component name, s⟩ : SchemaNode)) name
      d.schemas
  rw [hmap]
  cases hs : findValue? name d.schemas with
  | none =>
      rw [hs] at hroot
      cases hroot
  | some s =>
      rw [hs] at hroot
      cases hroot
      rfl

end Description

namespace Resolver

variable {r : Resolver} {components : List (String × SchemaNode)}
  {models : List (String × TypeId)} {s s₁ s' : WalkState}

/-- Components take slots of their own. -/
theorem grows_of_resolveComponents
    (h : (r.resolveComponents components).outcome s = (.ok models, s')) :
    Grows s.types s'.types := by
  have hask : (r.askAll (componentRequests components)).outcome s = (.ok (), s') := by
    rw [← silent_resolveComponents, Walk.outcome_silent, h]
  exact grows_of_askAll hask

/-- A component is told with the slot that is remembered for it. -/
theorem lookup_of_resolveComponents
    (h : (r.resolveComponents components).outcome s = (.ok models, s')) {name : String}
    {n : SchemaNode} (hn : findValue? name components = some n) :
    ∃ id w, findValue? name models = some id ∧ r.enter ⟨n, name, true⟩ = .ok w ∧
      s'.types.lookup (r.keyOf none w) = some id := by
  induction components generalizing s models with
  | nil => cases hn
  | cons entry rest ih =>
      obtain ⟨other, m⟩ := entry
      obtain ⟨id, others, s₁, rfl, hans, hrest⟩ := answered_of_resolveComponents_cons h
      by_cases hname : other = name
      · subst hname
        simp only [findValue?, if_true, Option.some.injEq] at hn ⊢
        subst hn
        cases hans with
        | component hw =>
            obtain ⟨w, hin, hl⟩ := hw.remembered
            -- The components after it keep what is remembered.
            have hl' := (grows_of_resolveComponents hrest).lookup_eq _ _ hl
            exact ⟨id, w, rfl, hin, hl'⟩
      · simp only [findValue?, if_neg hname] at hn ⊢
        exact ih hrest hn

/-- For the components nothing is remembered on a path. -/
theorem scope_of_resolveComponents
    (h : (r.resolveComponents components).outcome {} = (.ok models, s')) {key : MemoKey} {id : Nat}
    (hl : s'.types.lookup key = some id) : key.scope = none := by
  have hask : (r.askAll (componentRequests components)).outcome {} = (.ok (), s') := by
    rw [← silent_resolveComponents, Walk.outcome_silent, h]
  have hinvariant : ∀ (key : MemoKey) (id : Nat), s'.types.lookup key = some id →
      key.scope = none := by
    refine askAll_invariant
      (I := fun state => ∀ key id, state.types.lookup key = some id → key.scope = none) ?_ hask ?_
    · intro q hq s told s' hans hs key id hl
      obtain ⟨entry, _, rfl⟩ := List.mem_map.mp hq
      cases hans with
      | component hw =>
          rcases hw.scope_of_lookup hl with hl | hscope
          · exact hs key id hl
          · exact hscope
    · intro key id hl
      cases hl
  exact hinvariant key id hl

/-! ## Uses -/

/-- How the type of a use stands to those of the components: a schema that is used by reference,
and that no rule gives a type of its own, has the type of its component unless documents have rules
for schemas on the path; then it has a type that no component has. -/
def Shares (r : Resolver) (models : List (String × TypeId)) (path : String) (use : Use)
    (n : SchemaNode) (told : Resolved) : Prop :=
  ∀ target component, r.description.dereference n = .ok (some (target, component)) →
    Lookup.useRule? r.mappings (some path) use = none →
    Lookup.usageTypeRule? r.mappings (some path) use (target.features component true) = none →
    (¬ Lookup.RulesForSchemas r.mappings path → findValue? component models = some told.type) ∧
    (Lookup.RulesForSchemas r.mappings path → ∀ entry ∈ models, ¬ entry.2 = told.type)

/-- The scope of a path is the path itself if a document has rules for schemas there. -/
theorem scopeOf_some (path : String) :
    r.scopeOf (some path) = if Lookup.hasPathTypes r.mappings path then some path else none := by
  rw [scopeOf, Option.filter_some]

/-- **Each use shares the type of its component as it should**, once the components are
resolved. -/
theorem ensures_shares
    (hmodels : (r.resolveComponents r.description.components).outcome {} = (.ok models, s₁))
    (path : String) (use : Use) (n : SchemaNode) (name : String) :
    Walk.Ensures (fun s => Grows s₁.types s.types) (r.Shares models path use n)
      (r.resolveUse (some path) use n name) := by
  intro s told s' ho hs
  have hans := answered_ask (r := r) (.use (some path) use n name) s
  rw [show r.ask (.use (some path) use n name) = r.resolveUse (some path) use n name from rfl,
    ho] at hans
  have hs' : Grows s₁.types s'.types := hs.trans hans.grows
  refine ⟨hs', fun target component hderef huse hrule => ?_⟩
  have hin : r.enter ⟨n, name, false⟩ = .ok ⟨target, component, true⟩ := by
    rw [enter, hderef]
  have hdemand : r.useDemand (some path) use ⟨target, component, true⟩ = none := by
    rw [useDemand, huse]
    simp only
    rw [Visit.features, hrule]
  -- The use shares the type that is remembered for the component on the scope of the path.
  have hremembered : s'.types.lookup ⟨r.scopeOf (some path), target.key⟩ = some told.type := by
    cases hans with
    | shared hin' _ hw =>
        cases hin.symm.trans hin'
        obtain ⟨w, hw', hl⟩ := hw.remembered
        cases (enter_enter hin).symm.trans hw'
        exact hl
    | block hin' hdemand' =>
        cases hin.symm.trans hin'
        cases hdemand.symm.trans hdemand'
    | wrapper hin' hdemand' _ =>
        cases hin.symm.trans hin'
        cases hdemand.symm.trans hdemand'
  rw [scopeOf_some] at hremembered
  refine ⟨fun hno => ?_, fun hrules entry hentry heq => ?_⟩
  · have hscope : ¬ Lookup.hasPathTypes r.mappings path = true :=
      fun h => hno ((Lookup.hasPathTypes_iff path).mp h)
    rw [if_neg hscope] at hremembered
    -- Nothing is remembered twice, so the use finds what was remembered for the component.
    rcases enter_cases hin with ⟨_, heq⟩ | ⟨_, hmem, hroot, _⟩
    · cases heq
    · obtain ⟨id, w, hid, hw, hl⟩ :=
        lookup_of_resolveComponents hmodels (Description.findValue?_components hmem hroot)
      cases (enter_enter hin).symm.trans hw
      have hl' := hs'.lookup_eq _ _ hl
      rw [hid]
      exact hl'.symm.trans hremembered
  · rw [if_pos ((Lookup.hasPathTypes_iff path).mpr hrules)] at hremembered
    -- On the path nothing was remembered with the components, so the slot is a later one.
    rcases hs'.lookup_new _ _ hremembered with hold | ⟨hle, _⟩
    · cases scope_of_resolveComponents hmodels hold
    · obtain ⟨_, _, htold⟩ := @tells_resolveComponents r [] r.description.components {} models s₁
        hmodels TypeStore.Whole.empty (fun i hi => by cases hi)
      have hlt := htold _ (List.mem_map_of_mem hentry)
      rw [heq] at hlt
      exact absurd hlt (Nat.not_lt_of_le hle)

end Resolver

/-! ## Runs -/

/-- **Uses share the types of components exactly where no document has rules for schemas.** A run
that succeeds tells of all operations that are not left out, and of each parameter, request body and
response whose schema is a reference and that no rule gives a type of its own: it has the type of
the component that the reference leads to, or, where a document has rules for schemas on the path, a
type that no component has. Where none has, lookups for schemas give what they give without a
path. -/
theorem ResolvedApi.shares_of_run {r : Resolver} {api : ResolvedApi} (h : r.run = .ok api) :
    (∃ es, r.description.endpoints = .ok es ∧
      List.Forall₂ (Endpoint.Told (r.Shares api.models))
        (es.filter fun e => !Lookup.isExcluded r.mappings e.path) api.endpoints) ∧
    ∀ path, ¬ Lookup.RulesForSchemas r.mappings path → ∀ features,
      Lookup.placedTypeRule? r.mappings (some path) .schema features
        = Lookup.placedTypeRule? r.mappings none .schema features ∧
      Lookup.typeRule? r.mappings (some path) .schema features
        = Lookup.typeRule? r.mappings none .schema features ∧
      Lookup.annotateRules r.mappings (some path) .schema features
        = Lookup.annotateRules r.mappings none .schema features := by
  obtain ⟨es, s₁, s, hmodels, hes, hoperations, _⟩ := Resolver.parts_of_run h
  refine ⟨⟨es, hes, ?_⟩, fun path hno features =>
    Lookup.lookups_of_not_rulesForSchemas hno features⟩
  have hensures := Resolver.ensures_resolveEndpoints (Resolver.ensures_shares hmodels) es
  exact (hensures s₁ api.endpoints s hoperations (Grows.refl s₁.types)).2

/-- The schema of the request body of the operation on pets. -/
def petBody : SchemaNode :=
  ⟨Description.mediaKey (((SchemaKey.child ⟨"#/paths"⟩ "/pets").child "post").child "requestBody")
    "application/json", petReference⟩

/-- The request body shares the type of the component, but not where pets have a rule on the
path. -/
theorem shares_of_petDescription :
    (∃ api, (Resolver.mk petDescription {}).run = .ok api ∧ ∃ e ∈ api.endpoints,
      ∃ c ∈ e.requestBody, ∃ id, c.type = some id ∧ api.model? "Pet" = some id) ∧
    ∃ api, (Resolver.mk petDescription petOptions).run = .ok api ∧ ∃ e ∈ api.endpoints,
      ∃ c ∈ e.requestBody, ∃ id, c.type = some id ∧ ∀ model ∈ api.models, ¬ model.2 = id := by
  obtain ⟨operation, hoperations, hpath, hbody⟩ : ∃ e, petDescription.endpoints = .ok [e] ∧
    e.path = "/pets" ∧ e.requestBody = [⟨"application/json", some petBody⟩] := ⟨_, rfl, rfl, rfl⟩
  -- The request body of the one operation is told with an answer, whatever the options are.
  have hshares : ∀ options api, (Resolver.mk petDescription options).run = .ok api →
      Lookup.isExcluded options.mappings "/pets" = false →
      ∃ e ∈ api.endpoints, ∃ c ∈ e.requestBody, ∃ id, c.type = some id ∧
        (Resolver.mk petDescription options).Shares api.models "/pets" .schema petBody
          ⟨id, c.annotations⟩ := by
    intro options api hrun hincluded
    obtain ⟨⟨es, hes, htold⟩, _⟩ := ResolvedApi.shares_of_run hrun
    cases hoperations.symm.trans hes
    have hkept : [operation].filter (fun e => !Lookup.isExcluded options.mappings e.path)
        = [operation] := by
      rw [List.filter_cons_of_pos, List.filter_nil]
      rw [hpath, hincluded]
      rfl
    change List.Forall₂ _ ([operation].filter fun e => !Lookup.isExcluded options.mappings e.path)
      _ at htold
    rw [hkept] at htold
    generalize hfound : api.endpoints = found at htold
    cases htold with
    | @cons _ e _ _ he _ =>
        have hcontents := he.requestBody
        rw [hbody, hpath] at hcontents
        generalize hentries : e.requestBody = entries at hcontents
        cases hcontents with
        | @cons _ c _ _ hc _ =>
            obtain ⟨id, hid, hshares⟩ := hc.answer petBody rfl
            exact ⟨e, List.mem_cons_self, c, hentries ▸ List.mem_cons_self, id, hid, hshares⟩
  obtain ⟨target, hderef⟩ : ∃ target,
      petDescription.dereference petBody = .ok (some (target, "Pet")) := by
    obtain ⟨followed, hderef, hname⟩ := exists_of_map_toOption (show
      (petDescription.dereference petBody).toOption.map (Option.map Prod.snd)
        = some (some "Pet") by decide +kernel)
    obtain ⟨⟨target, name⟩, rfl, hname⟩ := Option.map_eq_some_iff.mp hname
    cases hname
    exact ⟨target, hderef⟩
  constructor
  · obtain ⟨api, h, _⟩ := exists_of_map_toOption (show (Resolver.mk petDescription
      {}).run.toOption.map (·.endpoints.length) = some 1 by decide +kernel)
    obtain ⟨e, he, c, hc, id, hid, hshare⟩ := hshares {} api h rfl
    have hno : ¬ Lookup.RulesForSchemas [] "/pets" := fun ⟨_, hmem, _⟩ => List.not_mem_nil hmem
    have hsame := (hshare target "Pet" hderef rfl (Lookup.usageTypeRule?_schema _ _)).1 hno
    exact ⟨api, h, e, he, c, hc, id, hid, hsame⟩
  · obtain ⟨api, h, _⟩ := exists_of_map_toOption (show (Resolver.mk petDescription
      petOptions).run.toOption.map (·.endpoints.length) = some 1 by decide +kernel)
    have hincluded : Lookup.isExcluded petOptions.mappings "/pets" = false := by decide +kernel
    obtain ⟨e, he, c, hc, id, hid, hshare⟩ := hshares petOptions api h hincluded
    have hrules : Lookup.RulesForSchemas petOptions.mappings "/pets" :=
      (Lookup.hasPathTypes_iff "/pets").mp (by decide +kernel)
    have hother := (hshare target "Pet" hderef rfl (Lookup.usageTypeRule?_schema _ _)).2 hrules
    exact ⟨api, h, e, he, c, hc, id, hid, hother⟩

end ApiTypes
