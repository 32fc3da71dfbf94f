import ApiTypes.Proofs.Walk.Growth

/-!
# Requests

What is asked of a resolver: the type of a component, or the type of a schema for one use. A use
may have a demand of its own, from a rule for its name or its content type or from a rule for
schemas in this use; what it demands is made for it alone and remembered nowhere. Else the use
shares the type of its schema. `Answered` relates a request to its answer, with one constructor
for each way in which a request can go (`answered_ask`, `Answered.outcome_eq`).
-/

set_option autoImplicit false

namespace ApiTypes

/-- What is asked of a resolver. -/
inductive Request where
  /-- The type of a component. -/
  | component (n : SchemaNode) (name : String)
  /-- The type of a schema for a use. -/
  | use (path : Option String) (use : Use) (n : SchemaNode) (name : String)

namespace Resolver

variable (r : Resolver) (path : Option String)

/-- The walk that answers a request. -/
def ask : Request → Walk Resolved
  | .component n name => do
      let id ← r.resolveComponent n name
      pure ⟨id, []⟩
  | .use path use n name => r.resolveUse path use n name

/-- What a use demands for itself. -/
def useDemand (use : Use) (w : Visit) : Option Demand :=
  match Lookup.useRule? r.mappings path use with
  | some rule =>
      match r.ruleTarget rule with
      | .error e => some (.fault e)
      | .ok target =>
          some (.block []
            (mappedType target [] rule.isArray w.node.constraints w.node.deprecated))
  | none =>
      match Lookup.usageTypeRule? r.mappings path use w.features with
      | some rule => some (r.demandOfRule w.node w.name rule)
      | none => none

/-- The state in which a type is annotated that belongs to one use. -/
def owned (v : Visit) (id : TypeId) (s : WalkState) : WalkState :=
  s.withTypes (s.types.annotateAll id (r.nodeAnnotations path v.node v.features))

/-- The answer for a use. -/
def answer (use : Use) (w : Visit) (id : TypeId) : Resolved :=
  ⟨id, r.usageAnnotations path use w.features⟩

/-- What a use may demand for itself. -/
theorem useDemand_cases {P : Demand → Prop} {use : Use} {w : Visit} {demand : Demand}
    (hfault : ∀ e, P (.fault e)) (hsingle : ∀ t : ModelType, t.references = [] → P (.block [] t))
    (hrule : ∀ rule, P (r.demandOfRule w.node w.name rule))
    (h : r.useDemand path use w = some demand) : P demand := by
  unfold useDemand at h
  split at h
  · split at h
    · cases h
      exact hfault _
    · cases h
      exact hsingle _ rfl
  · split at h
    · cases h
      exact hrule _
    · cases h

/-- A use makes no type that may be found before it is known. -/
theorem useDemand_ne_composite {use : Use} {w : Visit} {children : List Child}
    {shape : ModelType} : r.useDemand path use w ≠ some (.composite children shape) := by
  intro h
  refine useDemand_cases r path (P := fun demand => ¬ demand = .composite children shape)
    (fun _ => nofun) (fun _ _ => nofun) (fun rule => ?_) h rfl
  exact demandOfRule_cases (P := fun demand => ¬ demand = .composite children shape)
    (fun _ => nofun) (fun _ _ _ => nofun) fun _ => nofun

end Resolver

/-- How a request is answered and what that leaves behind. -/
inductive Answered (r : Resolver) :
    Request → WalkState → Except Error Resolved → WalkState → Prop
  | component {n : SchemaNode} {name : String} {s s' : WalkState} {id : TypeId} :
      Walked r none (r.depthFor n) (.one ⟨n, name, true⟩) s (.ok id) s' →
      Answered r (.component n name) s (.ok ⟨id, []⟩) s'
  | componentFails {n : SchemaNode} {name : String} {s s' : WalkState} {e : Error} :
      Walked r none (r.depthFor n) (.one ⟨n, name, true⟩) s (.error e) s' →
      Answered r (.component n name) s (.error e) s'
  | strayed {path : Option String} {use : Use} {n : SchemaNode} {name : String}
      {s : WalkState} {e : Error} :
      r.enter ⟨n, name, false⟩ = .error e → Answered r (.use path use n name) s (.error e) s
  | shared {path : Option String} {use : Use} {n : SchemaNode} {name : String} {w : Visit}
      {s s' : WalkState} {id : TypeId} :
      r.enter ⟨n, name, false⟩ = .ok w → r.useDemand path use w = none →
      Walked r path (r.depthFor w.node) (.one w) s (.ok id) s' →
      Answered r (.use path use n name) s (.ok (r.answer path use w id)) s'
  | sharedFails {path : Option String} {use : Use} {n : SchemaNode} {name : String} {w : Visit}
      {s s' : WalkState} {e : Error} :
      r.enter ⟨n, name, false⟩ = .ok w → r.useDemand path use w = none →
      Walked r path (r.depthFor w.node) (.one w) s (.error e) s' →
      Answered r (.use path use n name) s (.error e) s'
  | fault {path : Option String} {use : Use} {n : SchemaNode} {name : String} {w : Visit}
      {s : WalkState} {e : Error} :
      r.enter ⟨n, name, false⟩ = .ok w → r.useDemand path use w = some (.fault e) →
      Answered r (.use path use n name) s (.error e) s
  | block {path : Option String} {use : Use} {n : SchemaNode} {name : String} {w : Visit}
      {s : WalkState} {inner : List ModelType} {last : ModelType} :
      r.enter ⟨n, name, false⟩ = .ok w → r.useDemand path use w = some (.block inner last) →
      Answered r (.use path use n name) s
        (.ok (r.answer path use w (s.types.size + inner.length)))
        (r.owned path w (s.types.size + inner.length)
          (s.withTypes (s.types.addBlock inner last).2))
  | wrapper {path : Option String} {use : Use} {n : SchemaNode} {name : String} {w : Visit}
      {s s₁ : WalkState} {item : Child} {shape : ModelType} {id : TypeId} :
      r.enter ⟨n, name, false⟩ = .ok w → r.useDemand path use w = some (.wrapper item shape) →
      Walked r path (r.depthFor item.node) (.one item.visit) s (.ok id) s₁ →
      Answered r (.use path use n name) s (.ok (r.answer path use w s₁.types.size))
        (r.owned path w s₁.types.size
          (s₁.withTypes (s₁.types.add (shape.rename fun _ => id)).2))
  | wrapperFails {path : Option String} {use : Use} {n : SchemaNode} {name : String} {w : Visit}
      {s s₁ : WalkState} {item : Child} {shape : ModelType} {e : Error} :
      r.enter ⟨n, name, false⟩ = .ok w → r.useDemand path use w = some (.wrapper item shape) →
      Walked r path (r.depthFor item.node) (.one item.visit) s (.error e) s₁ →
      Answered r (.use path use n name) s (.error e) s₁

namespace Resolver

variable {r : Resolver} {path : Option String}

theorem outcome_ask_component (n : SchemaNode) (name : String) (s : WalkState) :
    (r.ask (.component n name)).outcome s =
      match (r.resolveVisit none (r.depthFor n) ⟨n, name, true⟩).outcome s with
      | (.ok id, s') => (.ok ⟨id, []⟩, s')
      | (.error e, s') => (.error e, s') := by
  have h : r.ask (.component n name)
      = r.resolveVisit none (r.depthFor n) ⟨n, name, true⟩ >>= fun id => pure ⟨id, []⟩ := rfl
  rw [h, Walk.outcome_bind]
  cases (r.resolveVisit none (r.depthFor n) ⟨n, name, true⟩).outcome s with
  | mk result s' =>
      cases result with
      | ok id => rfl
      | error e => rfl

/-- Nested calls for a use, each with the depth for its own schema. -/
def belowUse (r : Resolver) (path : Option String) (n : SchemaNode) (name : String) :
    Walk TypeId :=
  r.resolve path n name false

theorem outcome_annotate_pure (n : SchemaNode) (features : SchemaFeatures) (id : TypeId)
    (found : Resolved) (s : WalkState) :
    (do r.annotate path n features id; pure found : Walk Resolved).outcome s
      = (.ok found, s.withTypes (s.types.annotateAll id (r.nodeAnnotations path n features))) := by
  rw [Walk.outcome_bind, annotate, Walk.outcome_modifyTypes]
  rfl

/-- What a use becomes, references being followed. -/
def serve (r : Resolver) (path : Option String) (use : Use) (w : Visit) : Walk Resolved :=
  match r.useDemand path use w with
  | some demand => do
      let id ← meet (r.belowUse path) (r.keyOf path w) demand
      r.annotate path w.node w.features id
      pure (r.answer path use w id)
  | none => do
      let id ← r.resolveVisit path (r.depthFor w.node) w
      pure (r.answer path use w id)

theorem meet_useRule (key : MemoKey) (w : Visit) (target : Target) (isArray : Bool) :
    Walk.onTypes
        (·.add (mappedType target [] isArray w.node.constraints w.node.deprecated))
      = meet (r.belowUse path) key (.block []
          (mappedType target [] isArray w.node.constraints w.node.deprecated)) :=
  onTypes_add_eq _ fun _ => rfl

/-- A use is answered once references are followed. -/
theorem ask_use_eq (use : Use) (n : SchemaNode) (name : String) :
    r.ask (.use path use n name)
      = Walk.ofExcept (r.enter ⟨n, name, false⟩) >>= r.serve path use := by
  have hserve : ∀ w : Visit, (match Lookup.useRule? r.mappings path use with
      | some rule => do
          let target ← Walk.ofExcept (r.ruleTarget rule)
          let id ← Walk.onTypes
            (·.add (mappedType target [] rule.isArray w.node.constraints w.node.deprecated))
          r.annotate path w.node w.features id
          pure (r.answer path use w id)
      | none =>
          match Lookup.usageTypeRule? r.mappings path use w.features with
          | some rule => do
              let id ← r.buildFromRule (r.belowUse path) w.node w.name rule
              r.annotate path w.node w.features id
              pure (r.answer path use w id)
          | none => do
              let id ← r.resolve path w.node w.name w.isNamed
              pure (r.answer path use w id)) = r.serve path use w := by
    intro w
    unfold serve useDemand
    cases Lookup.useRule? r.mappings path use with
    | some rule =>
        cases htarget : r.ruleTarget rule with
        | error e => simp only [htarget]; rfl
        | ok target =>
            simp only [htarget, Walk.ofExcept, pure_bind]
            rw [@meet_useRule r path (r.keyOf path w) w target]
    | none =>
        cases Lookup.usageTypeRule? r.mappings path use w.features with
        | some rule =>
            simp only
            rw [buildFromRule_eq_meet r w.node w.name (r.keyOf path w) rule]
        | none => rfl
  rw [ask]
  unfold resolveUse enter
  cases r.description.dereference n with
  | error e => rfl
  | ok followed =>
      cases followed with
      | none => exact (hserve ⟨n, name, false⟩)
      | some target => exact (hserve ⟨target.1, target.2, true⟩)

theorem outcome_ask_use (use : Use) (n : SchemaNode) (name : String) (s : WalkState) :
    (r.ask (.use path use n name)).outcome s =
      match r.enter ⟨n, name, false⟩ with
      | .error e => (.error e, s)
      | .ok w => (r.serve path use w).outcome s := by
  rw [ask_use_eq, Walk.outcome_bind, Walk.outcome_ofExcept]
  cases r.enter ⟨n, name, false⟩ with
  | error e => rfl
  | ok w => rfl

/-- A use with a demand of its own is served by meeting it. -/
theorem outcome_serve_some {use : Use} {w : Visit} {demand : Demand}
    (h : r.useDemand path use w = some demand) (s : WalkState) :
    (r.serve path use w).outcome s =
      match (meet (r.belowUse path) (r.keyOf path w) demand).outcome s with
      | (.error e, s₁) => (.error e, s₁)
      | (.ok id, s₁) => (.ok (r.answer path use w id), r.owned path w id s₁) := by
  unfold serve
  simp only [h]
  rw [Walk.outcome_bind]
  cases (meet (r.belowUse path) (r.keyOf path w) demand).outcome s with
  | mk result s₁ =>
      cases result with
      | error e => rfl
      | ok id => exact outcome_annotate_pure w.node w.features id _ s₁

/-- A use without a demand of its own shares the type of its schema. -/
theorem outcome_serve_none {use : Use} {w : Visit} (h : r.useDemand path use w = none)
    (s : WalkState) :
    (r.serve path use w).outcome s =
      match (r.resolveVisit path (r.depthFor w.node) w).outcome s with
      | (.error e, s₁) => (.error e, s₁)
      | (.ok id, s₁) => (.ok (r.answer path use w id), s₁) := by
  unfold serve
  simp only [h]
  rw [Walk.outcome_bind]
  cases (r.resolveVisit path (r.depthFor w.node) w).outcome s with
  | mk result s₁ =>
      cases result with
      | error e => rfl
      | ok id => rfl

end Resolver

/-! ## The relation and the requests that are answered -/

variable {r : Resolver}

/-- **Every request is related to its outcome.** -/
theorem answered_ask (q : Request) (s : WalkState) :
    Answered r q s ((r.ask q).outcome s).1 ((r.ask q).outcome s).2 := by
  cases q with
  | component n name =>
      have h := @walked_resolveVisit r none (r.depthFor n) ⟨n, name, true⟩ s
      rw [Resolver.outcome_ask_component]
      cases ho : (r.resolveVisit none (r.depthFor n) ⟨n, name, true⟩).outcome s with
      | mk result s' =>
          rw [ho] at h
          cases result with
          | ok id => exact Answered.component h
          | error e => exact Answered.componentFails h
  | use path use n name =>
      rw [Resolver.outcome_ask_use]
      cases hv : r.enter ⟨n, name, false⟩ with
      | error e => exact Answered.strayed hv
      | ok w =>
          simp only
          cases hd : r.useDemand path use w with
          | none =>
              have h := @walked_resolveVisit r path (r.depthFor w.node) w s
              rw [Resolver.outcome_serve_none hd]
              cases ho : (r.resolveVisit path (r.depthFor w.node) w).outcome s with
              | mk result s' =>
                  rw [ho] at h
                  cases result with
                  | ok id => exact Answered.shared hv hd h
                  | error e => exact Answered.sharedFails hv hd h
          | some demand =>
              rw [Resolver.outcome_serve_some hd]
              cases demand with
              | fault e => exact Answered.fault hv hd
              | block inner last => exact Answered.block hv hd
              | wrapper item shape =>
                  have h := @walked_resolveVisit r path
                    (r.depthFor item.node) item.visit s
                  rw [Resolver.outcome_meet_wrapper]
                  change Walked r path _ (.one item.visit) s
                    ((r.belowUse path item.node item.name).outcome s).1
                    ((r.belowUse path item.node item.name).outcome s).2 at h
                  cases ho : (r.belowUse path item.node item.name).outcome s with
                  | mk result s₁ =>
                      rw [ho] at h
                      cases result with
                      | ok id => exact Answered.wrapper hv hd h
                      | error e => exact Answered.wrapperFails hv hd h
              | composite children shape => exact absurd hd (r.useDemand_ne_composite path)

/-- **The relation holds of nothing but the outcome.** -/
theorem Answered.outcome_eq {q : Request} {s s' : WalkState} {out : Except Error Resolved}
    (h : Answered r q s out s') : (r.ask q).outcome s = (out, s') := by
  cases h with
  | component h =>
      have ho : (r.resolveVisit none _ ⟨_, _, true⟩).outcome s = _ := h.ending_eq
      rw [Resolver.outcome_ask_component, ho]
  | componentFails h =>
      have ho : (r.resolveVisit none _ ⟨_, _, true⟩).outcome s = _ := h.ending_eq
      rw [Resolver.outcome_ask_component, ho]
  | strayed hv => rw [Resolver.outcome_ask_use, hv]
  | shared hv hd h =>
      have ho : (r.resolveVisit _ _ _).outcome s = _ := h.ending_eq
      rw [Resolver.outcome_ask_use, hv]
      simp only
      rw [Resolver.outcome_serve_none hd, ho]
  | sharedFails hv hd h =>
      have ho : (r.resolveVisit _ _ _).outcome s = _ := h.ending_eq
      rw [Resolver.outcome_ask_use, hv]
      simp only
      rw [Resolver.outcome_serve_none hd, ho]
  | fault hv hd =>
      rw [Resolver.outcome_ask_use, hv]
      simp only
      rw [Resolver.outcome_serve_some hd]
      rfl
  | block hv hd =>
      rw [Resolver.outcome_ask_use, hv]
      simp only
      rw [Resolver.outcome_serve_some hd]
      rfl
  | @wrapper path use n name w s s₁ item shape id hv hd h =>
      have ho : (r.belowUse path item.node item.name).outcome s = (.ok id, s₁) := h.ending_eq
      rw [Resolver.outcome_ask_use, hv]
      simp only
      rw [Resolver.outcome_serve_some hd, Resolver.outcome_meet_wrapper, ho]
  | @wrapperFails path use n name w s s₁ item shape e hv hd h =>
      have ho : (r.belowUse path item.node item.name).outcome s = (.error e, s') := h.ending_eq
      rw [Resolver.outcome_ask_use, hv]
      simp only
      rw [Resolver.outcome_serve_some hd, Resolver.outcome_meet_wrapper, ho]

/-! ## Requests one after the other -/

namespace Resolver

/-- Answers requests one by one. -/
def askAll (r : Resolver) : List Request → Walk Unit
  | [] => pure ()
  | q :: rest => do
      let _ ← r.ask q
      r.askAll rest

/-- The requests for components. -/
def componentRequests (components : List (String × SchemaNode)) : List Request :=
  components.map fun (name, n) => .component n name

/-- The requests for the parameters of an operation. -/
def parameterRequests (path operation : String) (ps : List Parameter) : List Request :=
  ps.map fun p =>
    .use (some path) (.parameter p.name) p.schema (Text.upperCamel (operation ++ " " ++ p.name))

/-- The requests for contents. -/
def contentRequests (path name : String) (use : String → Use) : List Content → List Request
  | [] => []
  | content :: rest =>
      match content.schema with
      | some schema =>
          .use (some path) (use content.contentType) schema name
            :: contentRequests path name use rest
      | none => contentRequests path name use rest

/-- The requests for the responses of an operation. -/
def responseRequests (path operation : String) (found : List (String × List Content)) :
    List Request :=
  found.flatMap fun (status, contents) =>
    contentRequests path (operation ++ "Response" ++ Text.upperCamel status) .response contents

/-- The requests for an operation. -/
def endpointRequests (e : Endpoint) : List Request :=
  parameterRequests e.path e.operationName e.parameters
    ++ contentRequests e.path (e.operationName ++ "RequestBody") (fun _ => .schema) e.requestBody
    ++ responseRequests e.path e.operationName e.responses

/-- The requests for the operations that are not left out. -/
def endpointsRequests (r : Resolver) (es : List Endpoint) : List Request :=
  (es.filter fun e => !Lookup.isExcluded r.mappings e.path).flatMap endpointRequests

end Resolver

namespace Walk

variable {α β : Type}

/-- A walk without what it tells. -/
def silent (w : Walk α) : Walk Unit := w >>= fun _ => pure ()

@[simp] theorem silent_pure (a : α) : silent (pure a) = pure () := by
  rw [silent, pure_bind]

theorem silent_bind (w : Walk α) (f : α → Walk β) :
    silent (w >>= f) = w >>= fun a => silent (f a) := by
  rw [silent, bind_assoc]
  rfl

/-- What follows a walk and does not depend on what it tells may follow it silently. -/
theorem bind_const_eq_silent (w : Walk α) (next : Walk β) :
    (w >>= fun _ => next) = w.silent >>= fun _ => next := by
  rw [silent, bind_assoc]
  simp only [pure_bind]

theorem outcome_silent (w : Walk α) (s : WalkState) :
    w.silent.outcome s = match w.outcome s with
      | (.ok _, s') => (.ok (), s')
      | (.error e, s') => (.error e, s') := by
  rw [silent, outcome_bind]
  cases w.outcome s with
  | mk result s' =>
      cases result with
      | ok a => rfl
      | error e => rfl

end Walk

namespace Resolver

variable {r : Resolver}

theorem askAll_append (qs qs' : List Request) :
    r.askAll (qs ++ qs') = r.askAll qs >>= fun _ => r.askAll qs' := by
  induction qs with
  | nil =>
      rw [List.nil_append, askAll, pure_bind]
  | cons q rest ih =>
      rw [List.cons_append, askAll, askAll, bind_assoc, ih]

theorem silent_resolveComponents (components : List (String × SchemaNode)) :
    (r.resolveComponents components).silent = r.askAll (componentRequests components) := by
  induction components with
  | nil => rfl
  | cons entry rest ih =>
      obtain ⟨name, n⟩ := entry
      have hask : componentRequests ((name, n) :: rest)
          = .component n name :: componentRequests rest := rfl
      rw [resolveComponents, hask, askAll, ask, Walk.silent_bind, bind_assoc]
      simp only [Walk.silent_bind, pure_bind, Walk.silent_pure]
      rw [← ih]
      rfl

theorem silent_resolveParameters (path operation : String) (ps : List Parameter) :
    (r.resolveParameters path operation ps).silent
      = r.askAll (parameterRequests path operation ps) := by
  induction ps with
  | nil => rfl
  | cons p rest ih =>
      have hask : parameterRequests path operation (p :: rest)
          = .use (some path) (.parameter p.name) p.schema
              (Text.upperCamel (operation ++ " " ++ p.name))
            :: parameterRequests path operation rest := rfl
      rw [resolveParameters, hask, askAll, ask, Walk.silent_bind, ← ih]
      simp only [Walk.silent_bind, Walk.silent_pure]
      rfl

theorem silent_resolveContents (path name : String) (use : String → Use) (cs : List Content) :
    (r.resolveContents path name use cs).silent
      = r.askAll (contentRequests path name use cs) := by
  induction cs with
  | nil => rfl
  | cons content rest ih =>
      rw [resolveContents, contentRequests]
      cases content.schema with
      | none =>
          simp only [pure_bind, Walk.silent_bind, Walk.silent_pure]
          exact ih
      | some schema =>
          rw [askAll, ask, ← ih]
          simp only [pure_bind, Walk.silent_bind, Walk.silent_pure]
          rfl

theorem silent_resolveResponses (path operation : String)
    (found : List (String × List Content)) :
    (r.resolveResponses path operation found).silent
      = r.askAll (responseRequests path operation found) := by
  induction found with
  | nil => rfl
  | cons entry rest ih =>
      obtain ⟨status, contents⟩ := entry
      have hask : responseRequests path operation ((status, contents) :: rest)
          = contentRequests path (operation ++ "Response" ++ Text.upperCamel status) .response
              contents ++ responseRequests path operation rest := List.flatMap_cons
      rw [resolveResponses, hask, askAll_append, ← ih, ← silent_resolveContents,
        ← Walk.bind_const_eq_silent]
      simp only [Walk.silent_bind, Walk.silent_pure]
      rfl

theorem silent_resolveEndpoint (e : Endpoint) :
    (r.resolveEndpoint e).silent = r.askAll (endpointRequests e) := by
  rw [resolveEndpoint, endpointRequests, askAll_append, askAll_append,
    ← silent_resolveParameters, ← silent_resolveContents, ← silent_resolveResponses, bind_assoc,
    ← Walk.bind_const_eq_silent, ← Walk.bind_const_eq_silent]
  simp only [Walk.silent_bind, Walk.silent_pure]
  rfl

theorem silent_resolveEndpoints (es : List Endpoint) :
    (r.resolveEndpoints es).silent = r.askAll (r.endpointsRequests es) := by
  induction es with
  | nil => rfl
  | cons e rest ih =>
      rw [resolveEndpoints, endpointsRequests, List.filter_cons]
      cases hx : Lookup.isExcluded r.mappings e.path with
      | true => exact ih
      | false =>
          simp only [Bool.not_false, if_true, Bool.false_eq_true, if_false, List.flatMap_cons]
          rw [askAll_append, ← silent_resolveEndpoint, ← Walk.bind_const_eq_silent,
            Walk.silent_bind]
          simp only [Walk.silent_bind, Walk.silent_pure]
          rw [endpointsRequests] at ih
          rw [← ih]
          rfl

/-- The walk over a description answers the requests for its components, then those for its
operations. -/
theorem silent_resolveAll :
    r.resolveAll.silent
      = r.askAll (componentRequests r.description.components) >>= fun _ =>
          Walk.ofExcept r.description.endpoints >>= fun es =>
            r.askAll (r.endpointsRequests es) := by
  rw [resolveAll, Walk.silent_bind, ← silent_resolveComponents, ← Walk.bind_const_eq_silent]
  simp only [Walk.silent_bind, Walk.silent_pure]
  congr 1
  funext models
  congr 1
  funext es
  rw [← silent_resolveEndpoints]
  rfl

end Resolver

/-- The requests of a run are answered up to a state. -/
structure Resolver.Serves (r : Resolver) (es : List Endpoint) (s₁ s : WalkState) : Prop where
  /-- The requests for the components come first. -/
  components : (r.askAll (Resolver.componentRequests r.description.components)).outcome {}
    = (.ok (), s₁)
  /-- The operations are known. -/
  endpoints_eq : r.description.endpoints = .ok es
  /-- The requests for the operations come next. -/
  endpoints : (r.askAll (r.endpointsRequests es)).outcome s₁ = (.ok (), s)

namespace Resolver

variable {r : Resolver}

theorem run_eq : r.run = match r.resolveAll.outcome {} with
    | (.ok (models, endpoints), s) => .ok ⟨s.types, models, endpoints⟩
    | (.error e, _) => .error e := rfl

/-- What a run that succeeds tells, and the types that it leaves. -/
theorem outcome_of_run {api : ResolvedApi} (h : r.run = .ok api) :
    ∃ s, r.resolveAll.outcome {} = (.ok (api.models, api.endpoints), s) ∧
      api.types = s.types := by
  rw [run_eq] at h
  cases ho : r.resolveAll.outcome {} with
  | mk result s =>
      rw [ho] at h
      cases result with
      | error e => cases h
      | ok found =>
          cases h
          exact ⟨s, rfl, rfl⟩

theorem outcome_silent_resolveAll :
    r.resolveAll.silent.outcome {} =
      match r.run with
      | .ok _ => (.ok (), (r.resolveAll.outcome {}).2)
      | .error e => (.error e, (r.resolveAll.outcome {}).2) := by
  rw [Walk.outcome_silent, run_eq]
  cases r.resolveAll.outcome {} with
  | mk result s =>
      cases result with
      | ok found => rfl
      | error e => rfl

/-- A run that succeeds answers all its requests. -/
theorem serves_of_run {api : ResolvedApi} (h : r.run = .ok api) :
    ∃ es s₁ s, r.Serves es s₁ s ∧ api.types = s.types := by
  obtain ⟨last, hall, htypes⟩ := outcome_of_run h
  have ho := outcome_silent_resolveAll (r := r)
  rw [h, hall, silent_resolveAll, Walk.outcome_bind] at ho
  cases hc : (r.askAll (componentRequests r.description.components)).outcome {} with
  | mk result s₁ =>
      rw [hc] at ho
      cases result with
      | error e => cases ho
      | ok _ =>
          simp only [Walk.outcome_bind, Walk.outcome_ofExcept] at ho
          cases hes : r.description.endpoints with
          | error e =>
              rw [hes] at ho
              cases ho
          | ok es =>
              rw [hes] at ho
              exact ⟨es, s₁, last, ⟨hc, hes, ho⟩, htypes⟩

/-- A run that fails does not answer a request, or does not know the operations. -/
theorem fails_of_run {e : Error} (h : r.run = .error e) :
    (∃ s, (r.askAll (componentRequests r.description.components)).outcome {} = (.error e, s)) ∨
    r.description.endpoints = .error e ∨
    ∃ es s₁ s, (r.askAll (componentRequests r.description.components)).outcome {} = (.ok (), s₁) ∧
      r.description.endpoints = .ok es ∧
      (r.askAll (r.endpointsRequests es)).outcome s₁ = (.error e, s) := by
  have ho := outcome_silent_resolveAll (r := r)
  rw [h, silent_resolveAll, Walk.outcome_bind] at ho
  generalize (r.resolveAll.outcome {}).2 = last at ho
  cases hc : (r.askAll (componentRequests r.description.components)).outcome {} with
  | mk result s₁ =>
      rw [hc] at ho
      cases result with
      | error e' =>
          cases ho
          exact Or.inl ⟨_, rfl⟩
      | ok _ =>
          simp only [Walk.outcome_bind, Walk.outcome_ofExcept] at ho
          cases hes : r.description.endpoints with
          | error e' =>
              rw [hes] at ho
              cases ho
              exact Or.inr (Or.inl rfl)
          | ok es =>
              rw [hes] at ho
              exact Or.inr (Or.inr ⟨es, s₁, last, rfl, rfl, ho⟩)

end Resolver

end ApiTypes
