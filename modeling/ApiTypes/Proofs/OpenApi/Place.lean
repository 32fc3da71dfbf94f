import ApiTypes.Proofs.OpenApi.Location

/-!
# Where schema nodes stand

`Description.node?` follows the key of a schema node through the description. A node is in place if
its own key leads to it, so that nodes in place are determined by their keys. The components of a
tidy description are in place, so is what a reference leads to, and so are the nodes right below a
node in place, each of which has one parent (`Description.InPlace.parent_unique`).
-/

set_option autoImplicit false

namespace ApiTypes

/-! ## Schemas that are in no other schema -/

namespace Description

/-- The schema of a content, and the segments that are left. -/
def contentRoot? (key : SchemaKey) (contents : List Media) :
    List String → Option (SchemaNode × List String)
  | type :: "schema" :: rest =>
      match contents.find? fun media => media.contentType == type with
      | some media => media.schema.map fun s => (⟨mediaKey key type, s⟩, rest)
      | none => none
  | _ => none

/-- The schema of a parameter, and the segments that are left. -/
def parameterRoot? (key : SchemaKey) (p : ParameterDecl) :
    List String → Option (SchemaNode × List String)
  | "schema" :: rest => p.schema.map fun s => (⟨key.child "schema", s⟩, rest)
  | "content" :: rest => contentRoot? key p.contents rest
  | _ => none

/-- The schema of a content of a request body or a response, and the segments that are left. -/
def bodyRoot? (key : SchemaKey) (b : Body) : List String → Option (SchemaNode × List String)
  | "content" :: rest => contentRoot? key b.contents rest
  | _ => none

/-- A schema in an operation, and the segments that are left. -/
def operationRoot? (key : SchemaKey) (op : Operation) :
    List String → Option (SchemaNode × List String)
  | "parameters" :: index :: rest =>
      match op.parameters[positionOf index]? with
      | some p => parameterRoot? ((key.child "parameters").item (positionOf index)) p rest
      | none => none
  | "requestBody" :: rest =>
      match op.requestBody with
      | some b => bodyRoot? (key.child "requestBody") b rest
      | none => none
  | "responses" :: status :: rest =>
      match findValue? status op.responses with
      | some b => bodyRoot? ((key.child "responses").child status) b rest
      | none => none
  | _ => none

/-- A schema of a path, and the segments that are left. -/
def pathRoot? (key : SchemaKey) (item : PathItem) :
    List String → Option (SchemaNode × List String)
  | "parameters" :: index :: rest =>
      match item.parameters[positionOf index]? with
      | some p => parameterRoot? ((key.child "parameters").item (positionOf index)) p rest
      | none => none
  | ["parameters"] => none
  | method :: rest =>
      match findValue? method item.operations with
      | some op => operationRoot? (key.child method) op rest
      | none => none
  | [] => none

/-- A schema that is in no other schema, and the segments that are left. -/
def root? (d : Description) : List String → Option (SchemaNode × List String)
  | "#" :: "components" :: "schemas" :: name :: rest =>
      match findValue? name d.schemas with
      | some s => some (⟨SchemaKey.component name, s⟩, rest)
      | none => none
  | "#" :: "components" :: "parameters" :: name :: rest =>
      match findValue? name d.parameters with
      | some p => parameterRoot? ((sectionKey "parameters").child name) p rest
      | none => none
  | "#" :: "components" :: "requestBodies" :: name :: rest =>
      match findValue? name d.requestBodies with
      | some b => bodyRoot? ((sectionKey "requestBodies").child name) b rest
      | none => none
  | "#" :: "components" :: "responses" :: name :: rest =>
      match findValue? name d.responses with
      | some b => bodyRoot? ((sectionKey "responses").child name) b rest
      | none => none
  | "#" :: "paths" :: path :: rest =>
      match findValue? path d.paths with
      | some item => pathRoot? (SchemaKey.child ⟨"#/paths"⟩ path) item rest
      | none => none
  | _ => none

/-- The schema node at a key. -/
def node? (d : Description) (key : SchemaKey) : Option SchemaNode :=
  match d.root? key.segments with
  | some (root, rest) => root.at? rest
  | none => none

/-- A node whose key leads to it. -/
def InPlace (d : Description) (n : SchemaNode) : Prop := d.node? n.key = some n

/-- A node in place that is in no other schema. -/
def IsRoot (d : Description) (n : SchemaNode) : Prop := d.root? n.key.segments = some (n, [])

/-! ## More segments are left -/

section Append

variable {segments rest more : List String} {n : SchemaNode}

theorem contentRoot?_append {key : SchemaKey} {contents : List Media}
    (h : contentRoot? key contents segments = some (n, rest)) :
    contentRoot? key contents (segments ++ more) = some (n, rest ++ more) := by
  unfold contentRoot? at h
  split at h
  · split at h
    · rename_i media hm
      simp only [List.cons_append, contentRoot?, hm]
      cases hs : media.schema with
      | none => simp [hs] at h
      | some s =>
          rw [hs] at h
          cases h
          rfl
    · cases h
  · cases h

theorem parameterRoot?_append {key : SchemaKey} {p : ParameterDecl}
    (h : parameterRoot? key p segments = some (n, rest)) :
    parameterRoot? key p (segments ++ more) = some (n, rest ++ more) := by
  unfold parameterRoot? at h
  split at h
  · simp only [List.cons_append, parameterRoot?]
    cases hs : p.schema with
    | none => simp [hs] at h
    | some s =>
        rw [hs] at h
        cases h
        rfl
  · simp only [List.cons_append, parameterRoot?]
    exact contentRoot?_append h
  · cases h

theorem bodyRoot?_append {key : SchemaKey} {b : Body}
    (h : bodyRoot? key b segments = some (n, rest)) :
    bodyRoot? key b (segments ++ more) = some (n, rest ++ more) := by
  unfold bodyRoot? at h
  split at h
  · simp only [List.cons_append, bodyRoot?]
    exact contentRoot?_append h
  · cases h

theorem operationRoot?_append {key : SchemaKey} {op : Operation}
    (h : operationRoot? key op segments = some (n, rest)) :
    operationRoot? key op (segments ++ more) = some (n, rest ++ more) := by
  unfold operationRoot? at h
  split at h
  · split at h
    · rename_i p hp
      simp only [List.cons_append, operationRoot?, hp]
      exact parameterRoot?_append h
    · cases h
  · split at h
    · rename_i b hb
      simp only [List.cons_append, operationRoot?, hb]
      exact bodyRoot?_append h
    · cases h
  · split at h
    · rename_i b hb
      simp only [List.cons_append, operationRoot?, hb]
      exact bodyRoot?_append h
    · cases h
  · cases h

/-- Segments below a path that do not lead to its parameters lead into an operation. -/
theorem pathRoot?_method {key : SchemaKey} {item : PathItem} {method : String}
    (hne : ¬ method = "parameters") (rest : List String) :
    pathRoot? key item (method :: rest) = match findValue? method item.operations with
      | some op => operationRoot? (key.child method) op rest
      | none => none := by
  rw [pathRoot?]
  · intro index left e
    exact absurd e hne
  · intro e
    exact absurd e hne

theorem pathRoot?_append {key : SchemaKey} {item : PathItem}
    (h : pathRoot? key item segments = some (n, rest)) :
    pathRoot? key item (segments ++ more) = some (n, rest ++ more) := by
  fun_cases pathRoot? key item segments with
  | case1 index left p hp =>
      simp only [pathRoot?, hp] at h
      simp only [List.cons_append, pathRoot?, hp]
      exact parameterRoot?_append h
  | case2 index left hp =>
      simp only [pathRoot?, hp] at h
      cases h
  | case3 => cases h
  | case4 method left hlong hshort op hop =>
      have hne : ¬ method = "parameters" := by
        rintro rfl
        cases left with
        | nil => exact hshort rfl rfl
        | cons index left => exact hlong index left rfl rfl
      rw [pathRoot?_method hne, hop] at h
      rw [List.cons_append, pathRoot?_method hne, hop]
      exact operationRoot?_append h
  | case5 method left hlong hshort hop =>
      have hne : ¬ method = "parameters" := by
        rintro rfl
        cases left with
        | nil => exact hshort rfl rfl
        | cons index left => exact hlong index left rfl rfl
      rw [pathRoot?_method hne, hop] at h
      cases h
  | case6 => cases h

theorem root?_append {d : Description} (h : d.root? segments = some (n, rest)) :
    d.root? (segments ++ more) = some (n, rest ++ more) := by
  unfold root? at h
  split at h
  · split at h
    · rename_i s hs
      cases h
      simp only [List.cons_append, root?, hs]
    · cases h
  · split at h
    · rename_i p hp
      simp only [List.cons_append, root?, hp]
      exact parameterRoot?_append h
    · cases h
  · split at h
    · rename_i b hb
      simp only [List.cons_append, root?, hb]
      exact bodyRoot?_append h
    · cases h
  · split at h
    · rename_i b hb
      simp only [List.cons_append, root?, hb]
      exact bodyRoot?_append h
    · cases h
  · split at h
    · rename_i item hi
      simp only [List.cons_append, root?, hi]
      exact pathRoot?_append h
    · cases h
  · cases h

end Append

/-! ## Nodes in place -/

variable {d : Description} {n m p q : SchemaNode} {l : Label}

/-- A node that is in no other schema is in place. -/
theorem IsRoot.inPlace (h : d.IsRoot n) : d.InPlace n := by
  rw [IsRoot] at h
  rw [InPlace, node?, h]
  rfl

/-- Nodes in place are determined by their keys. -/
theorem InPlace.eq_of_key_eq (hn : d.InPlace n) (hm : d.InPlace m) (h : n.key = m.key) : n = m := by
  rw [InPlace] at hn hm
  rw [h, hm] at hn
  exact (Option.some.inj hn).symm

/-- The segments of a node in place begin with those of a schema that is in no other one. -/
theorem InPlace.exists_root (h : d.InPlace n) :
    ∃ root rest, d.root? n.key.segments = some (root, rest) ∧ root.at? rest = some n := by
  rw [InPlace, node?] at h
  split at h
  · rename_i root rest hr
    exact ⟨root, rest, hr, h⟩
  · cases h

/-- Segments after those of a node in place lead to what is below it. -/
theorem InPlace.root?_append (h : d.InPlace n) (more : List String) :
    ∃ root rest, d.root? (n.key.segments ++ more) = some (root, rest ++ more) ∧
      root.at? (rest ++ more) = n.at? more := by
  obtain ⟨root, rest, hr, hat⟩ := h.exists_root
  exact ⟨root, rest, Description.root?_append hr, SchemaNode.at?_append hat⟩

/-- What is right below a node in place is in place. -/
theorem InPlace.child (h : d.InPlace n) (hm : n.child? l = some m) : d.InPlace m := by
  obtain ⟨root, rest, hr, hat⟩ := h.root?_append l.segments
  rw [InPlace, node?, SchemaNode.key_of_child? hm, Label.segments_key, hr]
  exact hat.trans (SchemaNode.at?_of_child? hm)

/-- A single segment leads to a node below only if it is that of the items or that of other
properties. -/
theorem at?_singleton {keyword : String} (hi : ¬ keyword = "items")
    (ha : ¬ keyword = "additionalProperties") : n.at? [keyword] = none := by
  unfold SchemaNode.at?
  split
  · contradiction
  · rename_i heq
    cases heq
    exact absurd rfl hi
  · rename_i heq
    cases heq
    exact absurd rfl ha
  all_goals rename_i heq
  · simp at heq
  · simp at heq
  · simp at heq
  · simp at heq
  · rfl

/-- A node in place is not one segment before a node that is two segments below another one in
place. -/
theorem InPlace.not_between (hp : d.InPlace p) {keyword : String} (hi : ¬ keyword = "items")
    (ha : ¬ keyword = "additionalProperties") (hn : d.InPlace n) :
    ¬ n.key.segments = p.key.segments ++ [keyword] := by
  intro heq
  obtain ⟨root, rest, hr, hat⟩ := hp.root?_append [keyword]
  rw [InPlace, node?, heq, hr] at hn
  simp only at hn
  rw [hat, at?_singleton hi ha] at hn
  cases hn

/-- A way adds one segment to a key, or two of which the first one does not lead anywhere. -/
theorem key_cases (l : Label) (k : SchemaKey) :
    (∃ name, l.key k = k.child name) ∨
    ∃ keyword name, ¬ keyword = "items" ∧ ¬ keyword = "additionalProperties" ∧
      l.key k = (k.child keyword).child name := by
  cases l with
  | items => exact Or.inl ⟨_, rfl⟩
  | additional => exact Or.inl ⟨_, rfl⟩
  | allOf index => exact Or.inr ⟨"allOf", toString index, by decide, by decide, rfl⟩
  | oneOf index => exact Or.inr ⟨"oneOf", toString index, by decide, by decide, rfl⟩
  | anyOf index => exact Or.inr ⟨"anyOf", toString index, by decide, by decide, rfl⟩
  | property name => exact Or.inr ⟨"properties", name, by decide, by decide, rfl⟩

/-- **A node has one parent.** -/
theorem InPlace.parent_unique {k : Label} (hp : d.InPlace p) (hq : d.InPlace q)
    (hm : p.child? l = some m) (hm' : q.child? k = some n) (h : m.key = n.key) : p = q := by
  rw [SchemaNode.key_of_child? hm, SchemaNode.key_of_child? hm'] at h
  rcases key_cases l p.key with ⟨a, ha⟩ | ⟨x, a, hxi, hxa, ha⟩
  · rcases key_cases k q.key with ⟨b, hb⟩ | ⟨y, b, hyi, hya, hb⟩
    · rw [ha, hb] at h
      exact hp.eq_of_key_eq hq (SchemaKey.child_inj h).1
    · rw [ha, hb] at h
      have hsegs := congrArg SchemaKey.segments (SchemaKey.child_inj h).1
      rw [SchemaKey.segments_child] at hsegs
      exact absurd hsegs (hq.not_between hyi hya hp)
  · rcases key_cases k q.key with ⟨b, hb⟩ | ⟨y, b, hyi, hya, hb⟩
    · rw [ha, hb] at h
      have hsegs := congrArg SchemaKey.segments (SchemaKey.child_inj h).1
      rw [SchemaKey.segments_child] at hsegs
      exact absurd hsegs.symm (hp.not_between hxi hxa hq)
    · rw [ha, hb] at h
      exact hp.eq_of_key_eq hq (SchemaKey.child_inj (SchemaKey.child_inj h).1).1

/-- **A node right below another one is in a schema.** -/
theorem IsRoot.key_ne_child (hn : d.IsRoot n) (hp : d.InPlace p) (hm : p.child? l = some m) :
    ¬ n.key = m.key := by
  intro h
  obtain ⟨root, rest, hr, _⟩ := hp.root?_append l.segments
  have hsegs := congrArg SchemaKey.segments h
  rw [SchemaNode.key_of_child? hm, Label.segments_key] at hsegs
  rw [IsRoot, hsegs, hr] at hn
  have hnil := (Prod.mk.inj (Option.some.inj hn)).2
  exact l.segments_ne_nil (List.append_eq_nil_iff.mp hnil).2

/-! ## Components and references -/

theorem root?_component {name : String} {s : Schema} (h : findValue? name d.schemas = some s) :
    d.IsRoot ⟨SchemaKey.component name, s⟩ := by
  rw [IsRoot, SchemaKey.segments_component]
  simp only [root?, h]

/-- A component of a tidy description is in place and in no other schema. -/
theorem isRoot_of_mem_components (hd : d.Tidy) {name : String} (h : (name, n) ∈ d.components) :
    d.IsRoot n := by
  obtain ⟨entry, hentry, heq⟩ := List.mem_map.mp h
  cases heq
  exact root?_component (findValue?_of_mem hd.nodup_schemas hentry)

/-- A component is found under its key. -/
theorem key_of_mem_components {name : String} (h : (name, n) ∈ d.components) :
    n.key = SchemaKey.component name := by
  obtain ⟨entry, hentry, heq⟩ := List.mem_map.mp h
  cases heq
  rfl

/-! ## Nodes in place are tidy -/

theorem tidy_of_at? {segments : List String} (hn : n.schema.Tidy)
    (h : n.at? segments = some m) : m.schema.Tidy := by
  have hstep : ∀ (n : SchemaNode) (l : Label) (m : SchemaNode), n.child? l = some m →
      n.schema.Tidy → m.schema.Tidy := fun _ _ _ hc htidy => SchemaNode.tidy_of_child? htidy hc
  exact SchemaNode.at?_invariant hstep h hn

section Roots

variable {key : SchemaKey} {segments rest : List String}

theorem tidy_of_contentRoot? {contents : List Media} (ht : TidyContents contents)
    (h : contentRoot? key contents segments = some (n, rest)) : n.schema.Tidy := by
  unfold contentRoot? at h
  split at h
  · split at h
    · rename_i media hm
      cases hs : media.schema with
      | none => simp [hs] at h
      | some s =>
          rw [hs] at h
          cases h
          exact ht.schemas media (List.mem_of_find?_eq_some hm) s hs
    · cases h
  · cases h

theorem tidy_of_parameterRoot? {p : ParameterDecl} (ht : p.Tidy)
    (h : parameterRoot? key p segments = some (n, rest)) : n.schema.Tidy := by
  unfold parameterRoot? at h
  split at h
  · cases hs : p.schema with
    | none => simp [hs] at h
    | some s =>
        rw [hs] at h
        cases h
        exact ht.schema s hs
  · exact tidy_of_contentRoot? ht.contents h
  · cases h

theorem tidy_of_bodyRoot? {b : Body} (ht : b.Tidy)
    (h : bodyRoot? key b segments = some (n, rest)) : n.schema.Tidy := by
  unfold bodyRoot? at h
  split at h
  · exact tidy_of_contentRoot? ht h
  · cases h

theorem tidy_of_operationRoot? {op : Operation} (ht : op.Tidy)
    (h : operationRoot? key op segments = some (n, rest)) : n.schema.Tidy := by
  unfold operationRoot? at h
  split at h
  · split at h
    · rename_i p hp
      exact tidy_of_parameterRoot? (ht.parameters p (List.mem_of_getElem? hp)) h
    · cases h
  · split at h
    · rename_i b hb
      exact tidy_of_bodyRoot? (ht.requestBody b hb) h
    · cases h
  · split at h
    · rename_i b hb
      exact tidy_of_bodyRoot? (ht.responses _ (mem_of_findValue? hb)) h
    · cases h
  · cases h

theorem tidy_of_pathRoot? {item : PathItem} (ht : item.Tidy)
    (h : pathRoot? key item segments = some (n, rest)) : n.schema.Tidy := by
  unfold pathRoot? at h
  split at h
  · split at h
    · rename_i p hp
      exact tidy_of_parameterRoot? (ht.parameters p (List.mem_of_getElem? hp)) h
    · cases h
  · cases h
  · split at h
    · rename_i op hop
      exact tidy_of_operationRoot? (ht.operations _ (mem_of_findValue? hop)) h
    · cases h
  · cases h

theorem tidy_of_root? (hd : d.Tidy) (h : d.root? segments = some (n, rest)) :
    n.schema.Tidy := by
  unfold root? at h
  split at h
  · split at h
    · rename_i s hs
      cases h
      exact hd.schemas _ (mem_of_findValue? hs)
    · cases h
  · split at h
    · rename_i p hp
      exact tidy_of_parameterRoot? (hd.parameters _ (mem_of_findValue? hp)) h
    · cases h
  · split at h
    · rename_i b hb
      exact tidy_of_bodyRoot? (hd.requestBodies _ (mem_of_findValue? hb)) h
    · cases h
  · split at h
    · rename_i b hb
      exact tidy_of_bodyRoot? (hd.responses _ (mem_of_findValue? hb)) h
    · cases h
  · split at h
    · rename_i item hi
      exact tidy_of_pathRoot? (hd.paths _ (mem_of_findValue? hi)) h
    · cases h
  · cases h

end Roots

/-- A node in place of a tidy description is tidy. -/
theorem InPlace.tidy (hd : d.Tidy) (h : d.InPlace n) : n.schema.Tidy := by
  obtain ⟨root, rest, hr, hat⟩ := h.exists_root
  exact tidy_of_at? (tidy_of_root? hd hr) hat

end Description

end ApiTypes
