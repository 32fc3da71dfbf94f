import ApiTypes.Proofs.OpenApi.Place
import Mathlib.Data.Finset.Card

/-!
# All schemas of a description

The schemas that are in no other schema stand in the components and in the paths
(`Description.roots`); with all schemas below them they are the schemas of the description
(`Description.nodes`). Every node in place is one of them. They are finitely many, and so are their
keys (`Description.nodeKeys`) and the references among them (`Description.references`): these are
the numbers by which walks over a description and chains of references are bounded.
-/

set_option autoImplicit false

namespace ApiTypes

/-! ## The schemas in a schema -/

namespace Schema

mutual

/-- A schema at a key and the schemas below it. -/
def nodes (key : SchemaKey) : Schema → List SchemaNode
  | reference target => [⟨key, reference target⟩]
  | inline keywords allOf oneOf anyOf properties items additional =>
      ⟨key, inline keywords allOf oneOf anyOf properties items additional⟩
        :: (nodesOfList (key.child "allOf") 0 allOf ++ nodesOfList (key.child "oneOf") 0 oneOf
          ++ nodesOfList (key.child "anyOf") 0 anyOf
          ++ nodesOfMembers (key.child "properties") properties
          ++ nodesOfOption (key.child "items") items
          ++ nodesOfAdditional (key.child "additionalProperties") additional)

/-- The schemas in a list at a key, the first one at a position. -/
def nodesOfList (key : SchemaKey) (index : Nat) : List Schema → List SchemaNode
  | [] => []
  | s :: rest => nodes (key.item index) s ++ nodesOfList key (index + 1) rest

/-- The schemas under names at a key. -/
def nodesOfMembers (key : SchemaKey) : List (String × Schema) → List SchemaNode
  | [] => []
  | (name, s) :: rest => nodes (key.child name) s ++ nodesOfMembers key rest

/-- The schemas in an optional schema. -/
def nodesOfOption (key : SchemaKey) : Option Schema → List SchemaNode
  | none => []
  | some s => nodes key s

/-- The schemas in a schema for other properties. -/
def nodesOfAdditional (key : SchemaKey) : Additional Schema → List SchemaNode
  | .none => []
  | .any => []
  | .described s => nodes key s

end

mutual

theorem length_nodes (key : SchemaKey) : ∀ s : Schema, (nodes key s).length = s.count
  | reference _ => by rw [nodes, count]; rfl
  | inline _ allOf oneOf anyOf properties items additional => by
      rw [nodes, count]
      simp only [List.length_cons, List.length_append, length_nodesOfList, length_nodesOfMembers,
        length_nodesOfOption, length_nodesOfAdditional]
      omega

theorem length_nodesOfList (key : SchemaKey) (index : Nat) : ∀ schemas : List Schema,
    (nodesOfList key index schemas).length = countList schemas
  | [] => by rw [nodesOfList, countList]; rfl
  | s :: rest => by
      rw [nodesOfList, countList, List.length_append, length_nodes, length_nodesOfList]

theorem length_nodesOfMembers (key : SchemaKey) : ∀ members : List (String × Schema),
    (nodesOfMembers key members).length = countMembers members
  | [] => by rw [nodesOfMembers, countMembers]; rfl
  | (name, s) :: rest => by
      rw [nodesOfMembers, countMembers, List.length_append, length_nodes, length_nodesOfMembers]

theorem length_nodesOfOption (key : SchemaKey) : ∀ schema : Option Schema,
    (nodesOfOption key schema).length = countOption schema
  | none => by rw [nodesOfOption, countOption]; rfl
  | some s => by rw [nodesOfOption, countOption, length_nodes]

theorem length_nodesOfAdditional (key : SchemaKey) : ∀ schema : Additional Schema,
    (nodesOfAdditional key schema).length = countAdditional schema
  | .none => by rw [nodesOfAdditional, countAdditional]; rfl
  | .any => by rw [nodesOfAdditional, countAdditional]; rfl
  | .described s => by rw [nodesOfAdditional, countAdditional, length_nodes]

end

theorem mem_nodes (key : SchemaKey) (s : Schema) : ⟨key, s⟩ ∈ nodes key s := by
  cases s with
  | reference target =>
      rw [nodes]
      exact List.mem_cons_self
  | inline keywords allOf oneOf anyOf properties items additional =>
      rw [nodes]
      exact List.mem_cons_self

theorem nodes_subset_nodesOfList {key : SchemaKey} {index i : Nat} {schemas : List Schema}
    {s : Schema} (h : schemas[i]? = some s) :
    nodes (key.item (index + i)) s ⊆ nodesOfList key index schemas := by
  induction schemas generalizing index i with
  | nil => cases h
  | cons first rest ih =>
      rw [nodesOfList]
      cases i with
      | zero =>
          cases h
          exact List.subset_append_left _ _
      | succ i =>
          have hrest := @ih (index + 1) _ h
          rw [Nat.add_assoc, Nat.add_comm 1 i] at hrest
          exact List.subset_append_of_subset_right _ hrest

theorem nodes_subset_nodesOfMembers {key : SchemaKey} {name : String} {s : Schema}
    {members : List (String × Schema)} (h : (name, s) ∈ members) :
    nodes (key.child name) s ⊆ nodesOfMembers key members := by
  induction members with
  | nil => cases h
  | cons first rest ih =>
      rw [nodesOfMembers]
      rcases List.mem_cons.mp h with rfl | hmem
      · exact List.subset_append_left _ _
      · exact List.subset_append_of_subset_right _ (ih hmem)

mutual

/-- What is in a schema below a schema is in that schema. -/
theorem nodes_subset_of_mem {n : SchemaNode} (key : SchemaKey) : ∀ s : Schema, n ∈ nodes key s →
    nodes n.key n.schema ⊆ nodes key s
  | reference target, h => by
      rw [nodes, List.mem_singleton] at h
      subst h
      exact List.Subset.refl _
  | inline keywords allOf oneOf anyOf properties items additional, h => by
      rw [nodes, List.mem_cons] at h
      rcases h with rfl | h
      · exact List.Subset.refl _
      intro m hm
      rw [nodes]
      apply List.mem_cons_of_mem
      -- The node is in one of the six parts of the list, and so is what is below it.
      simp only [List.mem_append] at h ⊢
      rcases h with ((((h | h) | h) | h) | h) | h
      · exact Or.inl (Or.inl (Or.inl (Or.inl (Or.inl (nodes_subset_of_mem_list _ _ _ h hm)))))
      · exact Or.inl (Or.inl (Or.inl (Or.inl (Or.inr (nodes_subset_of_mem_list _ _ _ h hm)))))
      · exact Or.inl (Or.inl (Or.inl (Or.inr (nodes_subset_of_mem_list _ _ _ h hm))))
      · exact Or.inl (Or.inl (Or.inr (nodes_subset_of_mem_members _ _ h hm)))
      · exact Or.inl (Or.inr (nodes_subset_of_mem_option _ _ h hm))
      · exact Or.inr (nodes_subset_of_mem_additional _ _ h hm)

theorem nodes_subset_of_mem_list {n : SchemaNode} (key : SchemaKey) (index : Nat) :
    ∀ schemas : List Schema, n ∈ nodesOfList key index schemas →
      nodes n.key n.schema ⊆ nodesOfList key index schemas
  | s :: rest, h => by
      rw [nodesOfList] at h ⊢
      rcases List.mem_append.mp h with h | h
      · exact List.subset_append_of_subset_left _ (nodes_subset_of_mem _ s h)
      · exact List.subset_append_of_subset_right _ (nodes_subset_of_mem_list _ _ rest h)

theorem nodes_subset_of_mem_members {n : SchemaNode} (key : SchemaKey) :
    ∀ members : List (String × Schema), n ∈ nodesOfMembers key members →
      nodes n.key n.schema ⊆ nodesOfMembers key members
  | (name, s) :: rest, h => by
      rw [nodesOfMembers] at h ⊢
      rcases List.mem_append.mp h with h | h
      · exact List.subset_append_of_subset_left _ (nodes_subset_of_mem _ s h)
      · exact List.subset_append_of_subset_right _ (nodes_subset_of_mem_members _ rest h)

theorem nodes_subset_of_mem_option {n : SchemaNode} (key : SchemaKey) :
    ∀ schema : Option Schema, n ∈ nodesOfOption key schema →
      nodes n.key n.schema ⊆ nodesOfOption key schema
  | some s, h => by
      rw [nodesOfOption] at h ⊢
      exact nodes_subset_of_mem _ s h

theorem nodes_subset_of_mem_additional {n : SchemaNode} (key : SchemaKey) :
    ∀ schema : Additional Schema, n ∈ nodesOfAdditional key schema →
      nodes n.key n.schema ⊆ nodesOfAdditional key schema
  | .described s, h => by
      rw [nodesOfAdditional] at h ⊢
      exact nodes_subset_of_mem _ s h

end

end Schema

namespace SchemaNode

/-- A node and the nodes below it. -/
def nodes (n : SchemaNode) : List SchemaNode := n.schema.nodes n.key

/-- The keys of nodes. -/
def keysOf (ns : List SchemaNode) : Finset SchemaKey := (ns.map key).toFinset

theorem key_mem_keysOf {n : SchemaNode} {ns : List SchemaNode} (h : n ∈ ns) : n.key ∈ keysOf ns :=
  List.mem_toFinset.mpr (List.mem_map_of_mem h)

/-- There are no more keys than nodes. -/
theorem card_keysOf_le (ns : List SchemaNode) : (keysOf ns).card ≤ ns.length := by
  have h := List.toFinset_card_le (ns.map key)
  rw [List.length_map] at h
  exact h

theorem self_mem_nodes (n : SchemaNode) : n ∈ n.nodes := Schema.mem_nodes n.key n.schema

theorem length_nodes (n : SchemaNode) : n.nodes.length = n.schema.count :=
  Schema.length_nodes n.key n.schema

/-- What is below a node right below another one is below that one. -/
theorem nodes_subset_of_mem_children {n m : SchemaNode} (h : m ∈ n.children) :
    m.nodes ⊆ n.nodes := by
  obtain ⟨key, schema⟩ := n
  cases schema with
  | reference target => cases h
  | inline keywords allOf oneOf anyOf properties items additional =>
      have hlisted : ∀ {keyword : String} {schemas : List Schema},
          m ∈ (⟨key, .inline keywords allOf oneOf anyOf properties items additional⟩ :
            SchemaNode).listed keyword schemas →
          m.nodes ⊆ Schema.nodesOfList (key.child keyword) 0 schemas := by
        intro keyword schemas hm
        obtain ⟨⟨s, i⟩, hmem, rfl⟩ := List.mem_map.mp hm
        have hi := List.mem_zipIdx_iff_getElem?.mp hmem
        have hsub : Schema.nodes ((key.child keyword).item (0 + i)) s
            ⊆ Schema.nodesOfList (key.child keyword) 0 schemas := Schema.nodes_subset_nodesOfList hi
        rw [Nat.zero_add] at hsub
        exact hsub
      intro k hk
      simp only [children, List.mem_append] at h
      rw [nodes, Schema.nodes, List.mem_cons]
      apply Or.inr
      simp only [List.mem_append]
      -- Children are listed keyword by keyword, in the order of the list.
      rcases h with ((((h | h) | h) | h) | h) | h
      · exact Or.inl (Or.inl (Or.inl (Or.inl (Or.inl (hlisted h hk)))))
      · exact Or.inl (Or.inl (Or.inl (Or.inl (Or.inr (hlisted h hk)))))
      · exact Or.inl (Or.inl (Or.inl (Or.inr (hlisted h hk))))
      · simp only [SchemaNode.properties, List.map_map, List.mem_map, Function.comp_apply] at h
        obtain ⟨⟨name, s⟩, hmem, rfl⟩ := h
        exact Or.inl (Or.inl (Or.inr (Schema.nodes_subset_nodesOfMembers hmem hk)))
      · cases items with
        | none => cases h
        | some s =>
            rcases List.mem_singleton.mp h with rfl
            exact Or.inl (Or.inr hk)
      · cases additional with
        | none => cases h
        | any => cases h
        | described s =>
            rcases List.mem_singleton.mp h with rfl
            exact Or.inr hk

/-- What segments lead to is below. -/
theorem nodes_subset_of_at? {segments : List String} {n m : SchemaNode}
    (h : n.at? segments = some m) : m.nodes ⊆ n.nodes := by
  have hstep : ∀ (p : SchemaNode) (l : Label) (q : SchemaNode), p.child? l = some q →
      p.nodes ⊆ n.nodes → q.nodes ⊆ n.nodes := fun _ _ _ hc hsub =>
    List.Subset.trans (nodes_subset_of_mem_children (mem_children_of_child? hc)) hsub
  exact at?_invariant hstep h (List.Subset.refl _)

end SchemaNode

/-! ## The schemas of a description -/

namespace Description

/-- The schemas of contents. -/
def contentRoots (key : SchemaKey) (contents : List Media) : List SchemaNode :=
  contents.filterMap fun media =>
    media.schema.map fun s => ⟨mediaKey key media.contentType, s⟩

/-- The schema of a parameter and those of its contents. -/
def parameterRoots (key : SchemaKey) (p : ParameterDecl) : List SchemaNode :=
  (p.schema.map fun s => (⟨key.child "schema", s⟩ : SchemaNode)).toList
    ++ contentRoots key p.contents

/-- The schemas of the parameters below a key. -/
def parametersRoots (key : SchemaKey) (ps : List ParameterDecl) : List SchemaNode :=
  ps.zipIdx.flatMap fun (p, index) => parameterRoots ((key.child "parameters").item index) p

/-- The schemas of an operation. -/
def operationRoots (key : SchemaKey) (op : Operation) : List SchemaNode :=
  parametersRoots key op.parameters
    ++ op.requestBody.toList.flatMap (fun b => contentRoots (key.child "requestBody") b.contents)
    ++ op.responses.flatMap fun (status, b) =>
      contentRoots ((key.child "responses").child status) b.contents

/-- The schemas of a path and its operations. -/
def pathRoots (key : SchemaKey) (item : PathItem) : List SchemaNode :=
  parametersRoots key item.parameters
    ++ item.operations.flatMap fun (method, op) => operationRoots (key.child method) op

/-- The schemas that are in no other schema. -/
def roots (d : Description) : List SchemaNode :=
  d.components.map Prod.snd
    ++ d.parameters.flatMap (fun (name, p) =>
      parameterRoots ((sectionKey "parameters").child name) p)
    ++ d.requestBodies.flatMap (fun (name, b) =>
      contentRoots ((sectionKey "requestBodies").child name) b.contents)
    ++ d.responses.flatMap (fun (name, b) =>
      contentRoots ((sectionKey "responses").child name) b.contents)
    ++ d.paths.flatMap fun (path, item) => pathRoots (SchemaKey.child ⟨"#/paths"⟩ path) item

/-- All schemas. -/
def nodes (d : Description) : List SchemaNode := d.roots.flatMap SchemaNode.nodes

/-- The schemas of the components and those below them. -/
def componentNodes (d : Description) : List SchemaNode :=
  Schema.nodesOfMembers ⟨"#/components/schemas"⟩ d.schemas

/-- The keys of all schemas. -/
def nodeKeys (d : Description) : Finset SchemaKey := SchemaNode.keysOf d.nodes

/-- The references among all schemas. -/
def references (d : Description) : Finset String :=
  (d.nodes.filterMap SchemaNode.reference?).toFinset

variable {d : Description} {n : SchemaNode}

theorem nodes_subset_of_mem_roots (h : n ∈ d.roots) : n.nodes ⊆ d.nodes :=
  fun _ hm => List.mem_flatMap.mpr ⟨n, h, hm⟩

/-- Components are schemas of the description. -/
theorem nodes_subset_of_mem_components {name : String} (h : (name, n) ∈ d.components) :
    n.nodes ⊆ d.nodes := by
  refine nodes_subset_of_mem_roots ?_
  simp only [roots, List.mem_append]
  exact Or.inl (Or.inl (Or.inl (Or.inl (List.mem_map_of_mem h))))

/-- What is below a schema of the description is a schema of the description. -/
theorem nodes_subset_of_mem_nodes (h : n ∈ d.nodes) : n.nodes ⊆ d.nodes := by
  obtain ⟨root, hroot, hn⟩ := List.mem_flatMap.mp h
  exact List.Subset.trans (Schema.nodes_subset_of_mem root.key root.schema hn)
    (nodes_subset_of_mem_roots hroot)

theorem mem_references {reference : String} (h : n ∈ d.nodes)
    (hr : n.reference? = some reference) : reference ∈ d.references :=
  List.mem_toFinset.mpr (List.mem_filterMap.mpr ⟨n, h, hr⟩)

theorem nodes_subset_componentNodes {name : String} (h : (name, n) ∈ d.components) :
    n.nodes ⊆ d.componentNodes := by
  obtain ⟨⟨name', s⟩, hmem, heq⟩ := List.mem_map.mp h
  cases heq
  rw [SchemaNode.nodes, SchemaKey.component_eq_child]
  exact Schema.nodes_subset_nodesOfMembers hmem

theorem length_componentNodes (d : Description) : d.componentNodes.length = d.schemaCount :=
  Schema.length_nodesOfMembers _ _

/-! ### Nodes in place -/

section Roots

variable {key : SchemaKey} {segments rest : List String}

theorem mem_contentRoots {contents : List Media}
    (h : contentRoot? key contents segments = some (n, rest)) : n ∈ contentRoots key contents := by
  unfold contentRoot? at h
  split at h
  · split at h
    · rename_i media hm
      have htype := List.find?_some hm
      cases hs : media.schema with
      | none => simp [hs] at h
      | some s =>
          rw [hs] at h
          cases h
          refine List.mem_filterMap.mpr ⟨media, List.mem_of_find?_eq_some hm, ?_⟩
          rw [hs, beq_iff_eq.mp htype]
          rfl
    · cases h
  · cases h

theorem mem_parameterRoots {p : ParameterDecl}
    (h : parameterRoot? key p segments = some (n, rest)) : n ∈ parameterRoots key p := by
  unfold parameterRoot? at h
  split at h
  · cases hs : p.schema with
    | none => simp [hs] at h
    | some s =>
        rw [hs] at h
        cases h
        refine List.mem_append_left _ (Option.mem_toList.mpr ?_)
        rw [hs]
        rfl
  · exact List.mem_append_right _ (mem_contentRoots h)
  · cases h

theorem mem_parametersRoots {ps : List ParameterDecl} {index : Nat} {p : ParameterDecl}
    (hp : ps[index]? = some p)
    (h : parameterRoot? ((key.child "parameters").item index) p segments = some (n, rest)) :
    n ∈ parametersRoots key ps :=
  List.mem_flatMap.mpr ⟨(p, index), List.mem_zipIdx_iff_getElem?.mpr hp, mem_parameterRoots h⟩

theorem mem_bodyRoots {b : Body} (h : bodyRoot? key b segments = some (n, rest)) :
    n ∈ contentRoots key b.contents := by
  unfold bodyRoot? at h
  split at h
  · exact mem_contentRoots h
  · cases h

theorem mem_operationRoots {op : Operation}
    (h : operationRoot? key op segments = some (n, rest)) : n ∈ operationRoots key op := by
  rw [operationRoots, List.mem_append, List.mem_append]
  unfold operationRoot? at h
  split at h
  · split at h
    · rename_i p hp
      exact Or.inl (Or.inl (mem_parametersRoots hp h))
    · cases h
  · split at h
    · rename_i b hb
      refine Or.inl (Or.inr (List.mem_flatMap.mpr ⟨b, ?_, mem_bodyRoots h⟩))
      exact Option.mem_toList.mpr hb
    · cases h
  · split at h
    · rename_i b hb
      exact Or.inr (List.mem_flatMap.mpr ⟨_, mem_of_findValue? hb, mem_bodyRoots h⟩)
    · cases h
  · cases h

theorem mem_pathRoots {item : PathItem} (h : pathRoot? key item segments = some (n, rest)) :
    n ∈ pathRoots key item := by
  rw [pathRoots, List.mem_append]
  unfold pathRoot? at h
  split at h
  · split at h
    · rename_i p hp
      exact Or.inl (mem_parametersRoots hp h)
    · cases h
  · cases h
  · split at h
    · rename_i op hop
      exact Or.inr (List.mem_flatMap.mpr ⟨_, mem_of_findValue? hop, mem_operationRoots h⟩)
    · cases h
  · cases h

theorem mem_roots_of_root? (h : d.root? segments = some (n, rest)) : n ∈ d.roots := by
  simp only [roots, List.mem_append]
  unfold root? at h
  -- The first segments name a section of the components, or the paths.
  split at h
  · split at h
    · rename_i s hs
      cases h
      refine Or.inl (Or.inl (Or.inl (Or.inl ?_)))
      rw [components, List.map_map]
      exact List.mem_map.mpr ⟨_, mem_of_findValue? hs, rfl⟩
    · cases h
  · split at h
    · rename_i p hp
      exact Or.inl (Or.inl (Or.inl (Or.inr
        (List.mem_flatMap.mpr ⟨_, mem_of_findValue? hp, mem_parameterRoots h⟩))))
    · cases h
  · split at h
    · rename_i b hb
      exact Or.inl (Or.inl (Or.inr
        (List.mem_flatMap.mpr ⟨_, mem_of_findValue? hb, mem_bodyRoots h⟩)))
    · cases h
  · split at h
    · rename_i b hb
      exact Or.inl (Or.inr (List.mem_flatMap.mpr ⟨_, mem_of_findValue? hb, mem_bodyRoots h⟩))
    · cases h
  · split at h
    · rename_i item hi
      exact Or.inr (List.mem_flatMap.mpr ⟨_, mem_of_findValue? hi, mem_pathRoots h⟩)
    · cases h
  · cases h

end Roots

/-- **A node in place is one of the schemas of the description.** -/
theorem InPlace.mem_nodes (h : d.InPlace n) : n ∈ d.nodes := by
  obtain ⟨root, rest, hroot, hat⟩ := h.exists_root
  exact nodes_subset_of_mem_roots (mem_roots_of_root? hroot)
    (SchemaNode.nodes_subset_of_at? hat n.self_mem_nodes)

end Description

end ApiTypes
