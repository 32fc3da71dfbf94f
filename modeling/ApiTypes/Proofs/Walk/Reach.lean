import ApiTypes.Proofs.Mapping.Scopes
import ApiTypes.Proofs.OpenApi.Endpoints
import ApiTypes.Proofs.Resolve.Reference
import ApiTypes.Proofs.Walk.Request

/-!
# Where the walk gets

A visit is proper if its schema is in place and it has a name for rules exactly if the schema is a
component. Everything that a walk gets to from a proper visit is proper again. Of a path only the
scope counts for the demand of a schema: the path itself if it has rules for schemas, else none.
`Resolver.Leads` is the graph of demands: a schema leads to those that its type is made around, once
references are followed.
-/

set_option autoImplicit false

namespace ApiTypes

/-- A schema in place, with a name for rules exactly if it is a component. -/
structure Visit.Proper (d : Description) (v : Visit) : Prop where
  /-- The schema is in place. -/
  inPlace : d.InPlace v.node
  /-- A component has its own name. -/
  named : v.isNamed = true → (v.name, v.node) ∈ d.components
  /-- Other schemas have no name for rules. -/
  unnamed : v.isNamed = false → ∀ name, ¬ v.node.key = SchemaKey.component name

/-- Proper visits of one key are about the same schema, and about the same component. -/
theorem Visit.Proper.eq_of_key_eq {d : Description} {v w : Visit} (hv : v.Proper d)
    (hw : w.Proper d) (h : v.node.key = w.node.key) :
    v.node = w.node ∧ v.isNamed = w.isNamed ∧ (v.isNamed = true → v = w) := by
  have hnode : v.node = w.node := hv.inPlace.eq_of_key_eq hw.inPlace h
  have hnamed : v.isNamed = w.isNamed := by
    cases hvn : v.isNamed with
    | true =>
        cases hwn : w.isNamed with
        | true => rfl
        | false =>
            have hkey := Description.key_of_mem_components (hv.named hvn)
            exact absurd (h.symm.trans hkey) (hw.unnamed hwn v.name)
    | false =>
        cases hwn : w.isNamed with
        | false => rfl
        | true =>
            have hkey := Description.key_of_mem_components (hw.named hwn)
            exact absurd (h.trans hkey) (hv.unnamed hvn w.name)
  refine ⟨hnode, hnamed, fun hvn => ?_⟩
  have hv' := Description.key_of_mem_components (hv.named hvn)
  have hw' := Description.key_of_mem_components (hw.named (hnamed ▸ hvn))
  have hname : v.name = w.name :=
    SchemaKey.component_inj (hv'.symm.trans (h.trans hw'))
  cases v with
  | mk node name isNamed =>
      cases w with
      | mk node' name' isNamed' =>
          simp only at hnode hnamed hname
          rw [hnode, hname, hnamed]

/-! ## Following references -/

namespace Resolver

variable {r : Resolver} {path : Option String} {v w : Visit}

/-- A visit is about its own schema, or about the component that a reference leads to. -/
theorem enter_cases (h : r.enter v = .ok w) :
    (v.node.reference? = none ∧ w = v) ∨
    (w.isNamed = true ∧ (w.name, w.node) ∈ r.description.components ∧
      r.description.IsRoot w.node ∧ w.node.reference? = none) := by
  unfold enter Description.dereference at h
  cases hr : v.node.reference? with
  | none =>
      simp only [hr] at h
      cases h
      exact Or.inl ⟨rfl, rfl⟩
  | some reference =>
      simp only [hr, Description.follow] at h
      cases hf : r.description.followFrom (r.description.schemas.length + 2) [] reference
          v.node.key with
      | error e =>
          rw [hf] at h
          cases h
      | ok found =>
          rw [hf] at h
          cases h
          obtain ⟨hmem, hroot, hnone⟩ := Description.component_of_followFrom hf
          exact Or.inr ⟨rfl, hmem, hroot, hnone⟩

/-- What a visit is about is no reference. -/
theorem reference?_of_enter (h : r.enter v = .ok w) : w.node.reference? = none := by
  rcases enter_cases h with ⟨hr, rfl⟩ | ⟨_, _, _, hr⟩
  · exact hr
  · exact hr

/-- A visit of a schema that is no reference is about that schema. -/
theorem enter_of_reference?_eq_none (h : v.node.reference? = none) : r.enter v = .ok v := by
  unfold enter Description.dereference
  rw [h]

/-- What a visit is about is about itself. -/
theorem enter_enter (h : r.enter v = .ok w) : r.enter w = .ok w :=
  enter_of_reference?_eq_none (reference?_of_enter h)

/-- What a visit is about depends on its schema alone, its name apart. -/
theorem enter_of_node_eq {v' : Visit} (hnode : v.node = v'.node) (h : r.enter v = .ok w) :
    ∃ w', r.enter v' = .ok w' ∧ w'.node = w.node := by
  unfold enter at h ⊢
  rw [← hnode]
  cases hd : r.description.dereference v.node with
  | error e =>
      rw [hd] at h
      cases h
  | ok followed =>
      rw [hd] at h
      cases followed with
      | none =>
          cases h
          exact ⟨v', rfl, hnode.symm⟩
      | some target =>
          cases h
          exact ⟨_, rfl, rfl⟩

/-- A proper visit is about what is proper. -/
theorem proper_of_enter (hv : v.Proper r.description) (h : r.enter v = .ok w) :
    w.Proper r.description := by
  rcases enter_cases h with ⟨_, rfl⟩ | ⟨hnamed, hmem, hroot, _⟩
  · exact hv
  · refine ⟨hroot.inPlace, fun _ => hmem, fun hn => ?_⟩
    rw [hnamed] at hn
    cases hn

/-- Entering fails only at a reference that cannot be followed. -/
theorem exists_follow_of_enter {e : Error} (h : r.enter v = .error e) :
    ∃ reference, v.node.reference? = some reference ∧
      r.description.follow reference v.node.key = .error e := by
  unfold enter Description.dereference at h
  cases hr : v.node.reference? with
  | none =>
      simp only [hr] at h
      cases h
  | some reference =>
      simp only [hr] at h
      cases hf : r.description.follow reference v.node.key with
      | ok found =>
          rw [hf] at h
          cases h
      | error e =>
          rw [hf] at h
          cases h
          exact ⟨reference, rfl, hf⟩

/-- Entering fails with a cycle only where references come back. -/
theorem cycle_of_enter {text : String} (h : r.enter v = .error (.cyclicReference text)) :
    ∃ m next, r.description.Loops m next ∧ text = m.key.text ∧
      (m = v.node ∨ r.description.IsRoot m) := by
  obtain ⟨reference, hr, hf⟩ := exists_follow_of_enter h
  exact Description.cycle_of_follow hr hf

/-! ## The schemas of a demand -/

section Children

variable {n : SchemaNode} {name : String} {c : Child}

theorem node_mem_of_mem_listedChildren {label : String} {index : Nat} {ns : List SchemaNode}
    (h : c ∈ listedChildren name label index ns) : c.node ∈ ns := by
  induction ns generalizing index with
  | nil => cases h
  | cons n rest ih =>
      rw [listedChildren] at h
      rcases List.mem_cons.mp h with rfl | h
      · exact List.mem_cons_self
      · exact List.mem_cons_of_mem _ (ih h)

theorem node_mem_of_mem_propertyChildren {properties : List (String × SchemaNode)}
    (h : c ∈ propertyChildren name properties) : c.node ∈ properties.map Prod.snd := by
  obtain ⟨entry, hentry, rfl⟩ := List.mem_map.mp h
  exact List.mem_map_of_mem hentry

/-- A rule demands nothing but the items. -/
theorem node_mem_of_demandOfRule {rule : Rule} (h : c ∈ (r.demandOfRule n name rule).children) :
    n.items = some c.node := by
  unfold demandOfRule at h
  split at h
  · cases h
  · split at h
    · split at h
      · rename_i items hi
        rw [Demand.children, List.mem_singleton] at h
        rw [h, hi]
      · cases h
    · cases h

theorem node_mem_of_demandOfFreeForm (h : c ∈ (demandOfFreeForm n name).children) :
    c.node ∈ n.children := by
  unfold demandOfFreeForm at h
  split at h
  · cases h
  · cases h
  · rename_i schema hs
    rw [Demand.children, List.mem_singleton] at h
    rw [h]
    exact SchemaNode.mem_children_additional hs

theorem node_mem_of_demandOfObject (h : c ∈ (r.demandOfObject n name).children) :
    c.node ∈ n.children :=
  SchemaNode.mem_children_properties (node_mem_of_mem_propertyChildren h)

theorem children_demandOfPrimitive (type : String) : (demandOfPrimitive n type).children = [] := by
  unfold demandOfPrimitive
  split
  · rfl
  · rfl

theorem node_mem_of_demandOfType (h : c ∈ (r.demandOfType n name).children) :
    c.node ∈ n.children := by
  unfold demandOfType at h
  split at h
  · split at h
    · cases h
    · rename_i items hi
      rw [Demand.children, List.mem_singleton] at h
      rw [h]
      exact SchemaNode.mem_children_items hi
  · split at h
    · exact node_mem_of_demandOfFreeForm h
    · exact node_mem_of_demandOfObject h
  · split at h
    · rw [children_demandOfPrimitive] at h
      cases h
    · cases h
  · rw [children_demandOfPrimitive] at h
    cases h
  · split at h
    · cases h
    · exact node_mem_of_demandOfObject h

theorem node_mem_of_demandOfShape (h : c ∈ (r.demandOfShape n name).children) :
    c.node ∈ n.children := by
  unfold demandOfShape at h
  split at h
  · exact SchemaNode.mem_children_allOf (node_mem_of_mem_listedChildren h)
  · split at h
    · exact SchemaNode.mem_children_oneOf (node_mem_of_mem_listedChildren h)
    · split at h
      · exact SchemaNode.mem_children_anyOf (node_mem_of_mem_listedChildren h)
      · exact node_mem_of_demandOfType h

end Children

/-- **A schema demands nothing but schemas right below it.** -/
theorem node_mem_of_demand {c : Child} (h : c ∈ (r.demand path v).children) :
    c.node ∈ v.node.children := by
  unfold demand at h
  split at h
  · exact SchemaNode.mem_children_items (node_mem_of_demandOfRule h)
  · exact node_mem_of_demandOfShape h

/-- What a use demands for itself is about the items of its schema. -/
theorem node_mem_of_useDemand {use : Use} {demand : Demand} {c : Child}
    (h : r.useDemand path use v = some demand) (hc : c ∈ demand.children) :
    v.node.items = some c.node := by
  unfold useDemand at h
  split at h
  · split at h
    · cases h
      cases hc
    · cases h
      cases hc
  · split at h
    · cases h
      exact node_mem_of_demandOfRule hc
    · cases h

end Resolver

/-! ## Demands without names -/

/-- What a demand is, whatever the names are that it gives to types. -/
inductive Demand.Outline where
  /-- Nothing can be demanded. -/
  | fault (e : Error)
  /-- Types that need no other schema, with those before the type of the schema. -/
  | block (inner : List ModelType)
  /-- A type around that of one other schema. -/
  | wrapper (item : SchemaNode)
  /-- A type that may be found while the schemas below are resolved. -/
  | composite (children : List SchemaNode)

namespace Demand

/-- A demand without names. -/
def outline : Demand → Outline
  | fault e => .fault e
  | block inner _ => .block inner
  | wrapper item _ => .wrapper item.node
  | composite children _ => .composite (children.map Child.node)

/-- The schemas that an outline is about. -/
def Outline.nodes : Outline → List SchemaNode
  | fault _ => []
  | block _ => []
  | wrapper item => [item]
  | composite children => children

/-- Whether the type may be found while the schemas below are resolved. -/
def Outline.isComposite : Outline → Bool
  | composite _ => true
  | _ => false

theorem nodes_outline (demand : Demand) : demand.outline.nodes = demand.children.map Child.node := by
  cases demand with
  | fault e => rfl
  | block inner last => rfl
  | wrapper item shape => rfl
  | composite children shape => rfl

theorem isComposite_outline (demand : Demand) :
    demand.outline.isComposite = demand.isComposite := by
  cases demand with
  | fault e => rfl
  | block inner last => rfl
  | wrapper item shape => rfl
  | composite children shape => rfl

end Demand

namespace Resolver

theorem map_node_listedChildren (name label : String) (index : Nat) (ns : List SchemaNode) :
    (listedChildren name label index ns).map Child.node = ns := by
  induction ns generalizing index with
  | nil => rfl
  | cons n rest ih => rw [listedChildren, List.map_cons, ih]

theorem map_node_propertyChildren (name : String) (properties : List (String × SchemaNode)) :
    (propertyChildren name properties).map Child.node = properties.map Prod.snd := by
  rw [propertyChildren, List.map_map]
  rfl

section Outline

variable (r : Resolver) (n : SchemaNode) (a b : String)

theorem outline_demandOfRule (rule : Rule) :
    (r.demandOfRule n a rule).outline = (r.demandOfRule n b rule).outline := by
  unfold demandOfRule
  cases r.ruleTarget rule with
  | error e => rfl
  | ok target =>
      by_cases h : rule.source.type = "array" ∧ n.type = some "array" ∧ target.args.isEmpty
      · simp only [if_pos h]
        cases n.items with
        | none => rfl
        | some items => rfl
      · simp only [if_neg h]

theorem outline_demandOfOneOf (label : String) (alternatives : List SchemaNode) :
    (r.demandOfOneOf n a label alternatives).outline = .composite alternatives := by
  rw [demandOfOneOf, Demand.outline, map_node_listedChildren]

theorem outline_demandOfObject :
    (r.demandOfObject n a).outline = .composite (n.properties.map Prod.snd) := by
  rw [demandOfObject, Demand.outline, map_node_propertyChildren]

theorem outline_demandOfFreeForm :
    (demandOfFreeForm n a).outline = (demandOfFreeForm n b).outline := by
  unfold demandOfFreeForm
  cases n.additional with
  | none => rfl
  | any => rfl
  | described schema => rfl

theorem outline_demandOfType :
    (r.demandOfType n a).outline = (r.demandOfType n b).outline := by
  unfold demandOfType
  split
  · cases n.items with
    | none => rfl
    | some items => rfl
  · split
    · exact outline_demandOfFreeForm n a b
    · rw [outline_demandOfObject, outline_demandOfObject]
  · split
    · rfl
    · rfl
  · rfl
  · split
    · rfl
    · rw [outline_demandOfObject, outline_demandOfObject]

theorem outline_demandOfShape :
    (r.demandOfShape n a).outline = (r.demandOfShape n b).outline := by
  unfold demandOfShape
  split
  · rw [Demand.outline, Demand.outline, map_node_listedChildren, map_node_listedChildren]
  · split
    · rw [outline_demandOfOneOf, outline_demandOfOneOf]
    · split
      · rw [outline_demandOfOneOf, outline_demandOfOneOf]
      · exact outline_demandOfType r n a b

end Outline

/-- Proper visits of one key demand the same, names apart. -/
theorem outline_demand {r : Resolver} (path : Option String) {v w : Visit}
    (hv : v.Proper r.description) (hw : w.Proper r.description) (h : v.node.key = w.node.key) :
    (r.demand path v).outline = (r.demand path w).outline := by
  obtain ⟨hnode, hnamed, heq⟩ := hv.eq_of_key_eq hw h
  cases hvn : v.isNamed with
  | true => rw [heq hvn]
  | false =>
      have hfeatures : v.features = w.features := by
        rw [Visit.features, Visit.features, ← hnamed, hvn, hnode]
        rfl
      unfold demand
      rw [hfeatures, hnode]
      cases Lookup.typeRule? r.mappings path .schema w.features with
      | some rule => exact outline_demandOfRule r w.node v.name w.name rule
      | none => exact outline_demandOfShape r w.node v.name w.name

end Resolver

/-- A schema right below another one is no component. -/
theorem Description.InPlace.child_ne_component {d : Description} {n m : SchemaNode} {l : Label}
    (h : d.InPlace n) (hm : n.child? l = some m) (name : String) :
    ¬ m.key = SchemaKey.component name := by
  intro hkey
  obtain ⟨root, rest, hr, _⟩ := h.root?_append l.segments
  have hsegs := congrArg SchemaKey.segments hkey
  rw [SchemaNode.key_of_child? hm, Label.segments_key, SchemaKey.segments_component] at hsegs
  rw [hsegs] at hr
  have hnil : rest ++ l.segments = [] := by
    simp only [root?] at hr
    split at hr
    · exact (Prod.mk.inj (Option.some.inj hr)).2.symm
    · cases hr
  exact l.segments_ne_nil (List.append_eq_nil_iff.mp hnil).2

/-- A visit of a schema right below a proper one is proper. -/
theorem Visit.Proper.child {d : Description} (hd : d.Tidy) {v : Visit} (hv : v.Proper d)
    {c : Child} (hc : c.node ∈ v.node.children) : c.visit.Proper d := by
  obtain ⟨l, hl⟩ := SchemaNode.child?_of_mem_children (hv.inPlace.tidy hd) hc
  refine ⟨hv.inPlace.child hl, fun h => ?_, fun _ name => hv.inPlace.child_ne_component hl name⟩
  cases h

/-! ## The scope of a path -/

namespace Resolver

variable {r : Resolver} {path : Option String} {v w : Visit}

/-- The scope of a path. -/
def scopeOf (r : Resolver) (path : Option String) : Option String :=
  path.filter (Lookup.hasPathTypes r.mappings)

theorem scopeOf_scopeOf (path : Option String) : r.scopeOf (r.scopeOf path) = r.scopeOf path := by
  rw [scopeOf, scopeOf, Option.filter_filter]
  simp only [Bool.and_self]

theorem keyOf_eq (path : Option String) (v : Visit) :
    r.keyOf path v = ⟨r.scopeOf path, v.node.key⟩ := rfl

theorem keyOf_scope (path : Option String) (v : Visit) :
    r.keyOf (r.scopeOf path) v = r.keyOf path v := by
  rw [keyOf_eq, keyOf_eq, scopeOf_scopeOf]

/-- A schema demands the same on all paths of a scope. -/
theorem demand_scope (path : Option String) (v : Visit) :
    r.demand (r.scopeOf path) v = r.demand path v := by
  rw [demand, demand, Lookup.typeRule?_scope path]
  rfl

theorem nodeAnnotations_scope (path : Option String) (v : Visit) :
    r.nodeAnnotations (r.scopeOf path) v.node v.features
      = r.nodeAnnotations path v.node v.features := by
  rw [nodeAnnotations, nodeAnnotations, Lookup.annotateRules_scope path]
  rfl

/-! ## The graph of demands -/

/-- The type of a schema is made around that of another one, once references are followed. -/
def Leads (r : Resolver) (path : Option String) (v w : Visit) : Prop :=
  ∃ c ∈ (r.demand path v).children, r.enter c.visit = .ok w

/-- Proper schemas of one key lead to schemas of the same keys. -/
theorem Leads.of_key_eq {v' : Visit} (h : r.Leads path v w) (hv : v.Proper r.description)
    (hv' : v'.Proper r.description) (hkey : v.node.key = v'.node.key) :
    ∃ w', r.Leads path v' w' ∧ w'.node.key = w.node.key := by
  obtain ⟨c, hc, hw⟩ := h
  have hnodes := congrArg Demand.Outline.nodes (outline_demand path hv hv' hkey)
  rw [Demand.nodes_outline, Demand.nodes_outline] at hnodes
  have hmem : c.node ∈ (r.demand path v').children.map Child.node := by
    rw [← hnodes]
    exact List.mem_map_of_mem hc
  obtain ⟨c', hc', hnode⟩ := List.mem_map.mp hmem
  have hsame : c.visit.node = c'.visit.node := hnode.symm
  obtain ⟨w', hw', hwnode⟩ := enter_of_node_eq hsame hw
  exact ⟨w', ⟨c', hc', hw'⟩, congrArg SchemaNode.key hwnode⟩

theorem leads_scope (path : Option String) : r.Leads (r.scopeOf path) = r.Leads path := by
  funext v w
  rw [Leads, Leads, demand_scope]

/-- A proper schema leads to proper ones. -/
theorem Leads.proper (hd : r.description.Tidy) (h : r.Leads path v w)
    (hv : v.Proper r.description) : w.Proper r.description := by
  obtain ⟨c, hc, hw⟩ := h
  exact proper_of_enter (hv.child hd (node_mem_of_demand hc)) hw

/-- A schema without a name that schemas lead to is right below each of them. -/
theorem Leads.mem_children (h : r.Leads path v w) (hw : w.isNamed = false) :
    w.node ∈ v.node.children := by
  obtain ⟨child, hchild, hin⟩ := h
  rcases enter_cases hin with ⟨_, rfl⟩ | ⟨hnamed, _⟩
  · exact node_mem_of_demand hchild
  · rw [hnamed] at hw
    cases hw

/-- Proper schemas that lead to one schema without a name are one schema. -/
theorem Leads.parent_unique {v' w' : Visit} (hd : r.description.Tidy) (h : r.Leads path v w)
    (h' : r.Leads path v' w') (hv : v.Proper r.description) (hv' : v'.Proper r.description)
    (hkey : w.node.key = w'.node.key) (hw : w.isNamed = false) (hw' : w'.isNamed = false) :
    v.node = v'.node := by
  obtain ⟨l, hl⟩ := SchemaNode.child?_of_mem_children (hv.inPlace.tidy hd) (h.mem_children hw)
  obtain ⟨l', hl'⟩ := SchemaNode.child?_of_mem_children (hv'.inPlace.tidy hd) (h'.mem_children hw')
  exact hv.inPlace.parent_unique hv'.inPlace hl hl' hkey

end Resolver

/-! ## Proper requests -/

/-- A request for a component under its name, or for a schema that is no component and in no other
schema. -/
def Request.Proper (d : Description) : Request → Prop
  | component n name => (name, n) ∈ d.components
  | use _ _ n _ => d.IsUse n

theorem Visit.proper_component {d : Description} (hd : d.Tidy) {n : SchemaNode} {name : String}
    (h : (name, n) ∈ d.components) : Visit.Proper d ⟨n, name, true⟩ := by
  refine ⟨(Description.isRoot_of_mem_components hd h).inPlace, fun _ => h, fun hn => ?_⟩
  cases hn

theorem Visit.proper_use {d : Description} {n : SchemaNode} (h : d.IsUse n) (name : String) :
    Visit.Proper d ⟨n, name, false⟩ := by
  refine ⟨h.isRoot.inPlace, fun hn => ?_, fun _ => h.key_ne⟩
  cases hn

namespace Resolver

theorem proper_componentRequests {d : Description} {q : Request}
    (h : q ∈ componentRequests d.components) : q.Proper d := by
  obtain ⟨entry, hentry, rfl⟩ := List.mem_map.mp h
  exact hentry

theorem exists_of_mem_contentRequests {path name : String} {use : String → Use}
    {cs : List Content} {q : Request} (h : q ∈ contentRequests path name use cs) :
    ∃ c ∈ cs, ∃ n, c.schema = some n ∧ q = .use (some path) (use c.contentType) n name := by
  induction cs with
  | nil => cases h
  | cons c rest ih =>
      rw [contentRequests] at h
      split at h
      · rename_i n hn
        rcases List.mem_cons.mp h with rfl | hmem
        · exact ⟨c, List.mem_cons_self, n, hn, rfl⟩
        · obtain ⟨c', hc', hq⟩ := ih hmem
          exact ⟨c', List.mem_cons_of_mem _ hc', hq⟩
      · obtain ⟨c', hc', hq⟩ := ih h
        exact ⟨c', List.mem_cons_of_mem _ hc', hq⟩

theorem proper_endpointRequests {d : Description} {e : Endpoint} (he : d.EndpointUses e)
    {q : Request} (h : q ∈ endpointRequests e) : q.Proper d := by
  rw [endpointRequests, List.mem_append, List.mem_append] at h
  rcases h with (h | h) | h
  · obtain ⟨p, hp, rfl⟩ := List.mem_map.mp h
    exact he.parameters p hp
  · obtain ⟨c, hc, n, hn, rfl⟩ := exists_of_mem_contentRequests h
    exact he.requestBody c hc n hn
  · obtain ⟨entry, hentry, hq⟩ := List.mem_flatMap.mp h
    obtain ⟨c, hc, n, hn, rfl⟩ := exists_of_mem_contentRequests hq
    exact he.responses entry hentry c hc n hn

/-- **The requests of a run are proper.** -/
theorem proper_endpointsRequests {r : Resolver} (hd : r.description.Tidy) {es : List Endpoint}
    (hes : r.description.endpoints = .ok es) {q : Request} (h : q ∈ r.endpointsRequests es) :
    q.Proper r.description := by
  obtain ⟨e, he, hq⟩ := List.mem_flatMap.mp h
  exact proper_endpointRequests
    (Description.endpointUses_of_endpoints hd hes (List.mem_of_mem_filter he)) hq

/-- The requests of a run: those for its components, and those for its operations. -/
def Asks (r : Resolver) (q : Request) : Prop :=
  q ∈ componentRequests r.description.components ∨
  ∃ es, r.description.endpoints = .ok es ∧ q ∈ r.endpointsRequests es

theorem Asks.proper {r : Resolver} {q : Request} (h : r.Asks q) (hd : r.description.Tidy) :
    q.Proper r.description := by
  rcases h with h | ⟨es, hes, h⟩
  · exact proper_componentRequests h
  · exact proper_endpointsRequests hd hes h

end Resolver

end ApiTypes
