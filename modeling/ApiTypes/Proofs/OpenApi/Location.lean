import ApiTypes.Proofs.OpenApi.Tidy

/-!
# Ways inside a schema

The key of a schema node is a pointer, a list of segments. A node right below another one is at the
end of a way, which adds one or two segments to the key, and segments lead from a node to those
below it. In a tidy node every node below is at the end of a way of its own.
-/

set_option autoImplicit false

namespace ApiTypes

/-! ## The segments of a pointer -/

namespace Pointer

theorem splitSlash_ne_nil (cs : List Char) : splitSlash cs ≠ [] := by
  cases cs with
  | nil => simp [splitSlash]
  | cons c rest =>
      unfold splitSlash
      split
      · contradiction
      · simp
      · split
        · simp
        · simp

/-- Cutting at slashes takes a text apart at each of them. -/
theorem splitSlash_append (a b : List Char) :
    splitSlash (a ++ '/' :: b) = splitSlash a ++ splitSlash b := by
  induction a with
  | nil => simp [splitSlash]
  | cons c rest ih =>
      by_cases hc : c = '/'
      · subst hc
        simp [splitSlash, ih]
      · have hcons : ∀ {cs segment segments}, splitSlash cs = segment :: segments →
            splitSlash (c :: cs) = (c :: segment) :: segments := by
          intro cs segment segments hcs
          simp [splitSlash, hcs]
        cases hrest : splitSlash rest with
        | nil => exact absurd hrest (splitSlash_ne_nil rest)
        | cons segment segments =>
            have happend : splitSlash (rest ++ '/' :: b) = segment :: (segments ++ splitSlash b) := by
              rw [ih, hrest, List.cons_append]
            rw [List.cons_append, hcons happend, hcons hrest, List.cons_append]

/-- A text without slash is not cut. -/
theorem splitSlash_of_notMem {cs : List Char} (h : '/' ∉ cs) : splitSlash cs = [cs] := by
  induction cs with
  | nil => rfl
  | cons c rest ih =>
      rw [List.mem_cons, not_or] at h
      unfold splitSlash
      split
      · contradiction
      · rename_i heq
        cases heq
        exact absurd rfl h.1
      · rename_i heq
        cases heq
        rw [ih h.2]

end Pointer

namespace SchemaKey

/-- The names that a key is made of. -/
def segments (key : SchemaKey) : List String :=
  (Pointer.splitSlash key.text.toList).map fun segment => String.ofList (Pointer.unescape segment)

/-- The key of a node below another one has one more segment. -/
theorem segments_child (key : SchemaKey) (name : String) :
    (key.child name).segments = key.segments ++ [name] := by
  have hesc : Pointer.splitSlash (Pointer.escape name.toList) = [Pointer.escape name.toList] :=
    Pointer.splitSlash_of_notMem (Pointer.slash_notMem_escape _)
  have htext : (key.child name).text.toList
      = key.text.toList ++ '/' :: Pointer.escape name.toList := by
    simp [child, Pointer.escapeSegment]
  rw [segments, htext, Pointer.splitSlash_append, hesc, List.map_append, segments]
  simp [Pointer.unescape_escape]

theorem segments_item (key : SchemaKey) (index : Nat) :
    (key.item index).segments = key.segments ++ [toString index] :=
  segments_child key _

theorem component_eq_child (name : String) :
    component name = child ⟨"#/components/schemas"⟩ name := by
  have hslash : "#/components/schemas/" = "#/components/schemas" ++ "/" := rfl
  exact congrArg (fun start => SchemaKey.mk (start ++ Pointer.escapeSegment name)) hslash

theorem segments_component (name : String) :
    (component name).segments = ["#", "components", "schemas", name] := by
  have hsection : segments ⟨"#/components/schemas"⟩ = ["#", "components", "schemas"] := by decide
  rw [component_eq_child, segments_child, hsection]
  rfl

/-- The key of a component tells its name. -/
theorem component_inj {a b : String} (h : component a = component b) : a = b := by
  have hs := congrArg segments h
  rw [segments_component, segments_component] at hs
  simpa using hs

/-- The key of a node below another one tells both. -/
theorem child_inj {key other : SchemaKey} {a b : String} (h : key.child a = other.child b) :
    key = other ∧ a = b := by
  have hab : a = b := by
    have hs := congrArg segments h
    rw [segments_child, segments_child] at hs
    have hlast := (List.append_inj' hs rfl).2
    simpa using hlast
  subst hab
  have htext := congrArg (fun k : SchemaKey => k.text) h
  refine ⟨?_, rfl⟩
  cases key with
  | mk text =>
      cases other with
      | mk text' =>
          simp only [child] at htext
          have hl := congrArg String.toList htext
          simp only [String.toList_append] at hl
          have hcancel := List.append_cancel_right (List.append_cancel_right hl)
          rw [String.ext hcancel]

end SchemaKey

/-! ## Nodes below a node -/

/-- The position that a segment stands for. -/
def positionOf (segment : String) : Nat := Nat.ofDigitChars 10 segment.toList 0

theorem positionOf_toString (index : Nat) : positionOf (toString index) = index := by
  rw [positionOf, Nat.toString_eq_repr, Nat.toList_repr, Nat.ofDigitChars_ten_toDigits]

namespace SchemaNode

/-- The node that segments lead to from a node. -/
def at? : List String → SchemaNode → Option SchemaNode
  | [], n => some n
  | "items" :: rest, n =>
      match n.items with
      | some below => at? rest below
      | none => none
  | "additionalProperties" :: rest, n =>
      match n.additional with
      | .described below => at? rest below
      | _ => none
  | "allOf" :: index :: rest, n =>
      match n.allOf[positionOf index]? with
      | some below => at? rest below
      | none => none
  | "oneOf" :: index :: rest, n =>
      match n.oneOf[positionOf index]? with
      | some below => at? rest below
      | none => none
  | "anyOf" :: index :: rest, n =>
      match n.anyOf[positionOf index]? with
      | some below => at? rest below
      | none => none
  | "properties" :: name :: rest, n =>
      match findValue? name n.properties with
      | some below => at? rest below
      | none => none
  | _, _ => none

/-- A path is followed in parts. -/
theorem at?_append {segments more : List String} {n m : SchemaNode} (h : at? segments n = some m) :
    at? (segments ++ more) n = at? more m := by
  fun_induction at? segments n with
  | case1 n =>
      cases h
      rfl
  | case2 rest n below hb ih => simpa only [List.cons_append, at?, hb] using ih h
  | case4 rest n below hb ih => simpa only [List.cons_append, at?, hb] using ih h
  | case6 index rest n below hb ih => simpa only [List.cons_append, at?, hb] using ih h
  | case8 index rest n below hb ih => simpa only [List.cons_append, at?, hb] using ih h
  | case10 index rest n below hb ih => simpa only [List.cons_append, at?, hb] using ih h
  | case12 name rest n below hb ih => simpa only [List.cons_append, at?, hb] using ih h
  | _ => cases h

end SchemaNode

/-- The way from a node to one right below it. -/
inductive Label where
  /-- To the items. -/
  | items
  /-- To what holds for other properties. -/
  | additional
  /-- To a constituent. -/
  | allOf (index : Nat)
  /-- To an alternative of which exactly one holds. -/
  | oneOf (index : Nat)
  /-- To an alternative of which some hold. -/
  | anyOf (index : Nat)
  /-- To a property. -/
  | property (name : String)

namespace Label

/-- The segments that a way adds to a key. -/
def segments : Label → List String
  | items => ["items"]
  | additional => ["additionalProperties"]
  | allOf index => ["allOf", toString index]
  | oneOf index => ["oneOf", toString index]
  | anyOf index => ["anyOf", toString index]
  | property name => ["properties", name]

/-- The key at the end of a way. -/
def key (k : SchemaKey) : Label → SchemaKey
  | items => k.child "items"
  | additional => k.child "additionalProperties"
  | allOf index => (k.child "allOf").item index
  | oneOf index => (k.child "oneOf").item index
  | anyOf index => (k.child "anyOf").item index
  | property name => (k.child "properties").child name

theorem segments_key (k : SchemaKey) (l : Label) :
    (l.key k).segments = k.segments ++ l.segments := by
  cases l with
  | items => exact SchemaKey.segments_child k _
  | additional => exact SchemaKey.segments_child k _
  | _ =>
      simp only [key, SchemaKey.segments_item, SchemaKey.segments_child, segments,
        List.append_assoc]
      rfl

theorem segments_ne_nil (l : Label) : l.segments ≠ [] := by
  cases l with
  | _ => exact List.cons_ne_nil _ _

end Label

namespace SchemaNode

/-- The node at the end of a way. -/
def child? (n : SchemaNode) : Label → Option SchemaNode
  | .items => n.items
  | .additional =>
      match n.additional with
      | .described below => some below
      | _ => none
  | .allOf index => n.allOf[index]?
  | .oneOf index => n.oneOf[index]?
  | .anyOf index => n.anyOf[index]?
  | .property name => findValue? name n.properties

theorem key_of_getElem?_listed {n m : SchemaNode} {keyword : String} {schemas : List Schema}
    {index : Nat} (h : (n.listed keyword schemas)[index]? = some m) :
    m.key = (n.key.child keyword).item index := by
  rw [listed, List.getElem?_map, List.getElem?_zipIdx] at h
  cases hs : schemas[index]? with
  | none => simp [hs] at h
  | some schema =>
      rw [hs] at h
      simp only [Option.map_some, Option.some.injEq, Nat.zero_add] at h
      rw [← h]

theorem findValue?_map {α β : Type} (f : String → α → β) (name : String)
    (entries : List (String × α)) :
    findValue? name (entries.map fun entry => (entry.1, f entry.1 entry.2))
      = (findValue? name entries).map (f name) := by
  induction entries with
  | nil => rfl
  | cons entry rest ih =>
      obtain ⟨other, a⟩ := entry
      by_cases h : other = name
      · simp [findValue?, h]
      · simpa [findValue?, h] using ih

/-- The node at the end of a way has the key at its end. -/
theorem key_of_child? {n m : SchemaNode} {l : Label} (h : n.child? l = some m) :
    m.key = l.key n.key := by
  obtain ⟨k, schema⟩ := n
  cases schema with
  | reference target =>
      cases l with
      | items => cases h
      | additional => cases h
      | property name => cases h
      | _ => simp [child?, allOf, oneOf, anyOf] at h
  | inline keywords allOf oneOf anyOf properties items additional =>
      cases l with
      | items =>
          cases items with
          | none => cases h
          | some below =>
              cases h
              rfl
      | additional =>
          cases additional with
          | described below =>
              cases h
              rfl
          | _ => cases h
      | allOf index => exact key_of_getElem?_listed h
      | oneOf index => exact key_of_getElem?_listed h
      | anyOf index => exact key_of_getElem?_listed h
      | property name =>
          have hmap := findValue?_map
            (fun name schema => SchemaNode.mk ((k.child "properties").child name) schema) name
            properties
          have hfind : findValue? name (SchemaNode.properties
              ⟨k, .inline keywords allOf oneOf anyOf properties items additional⟩) = some m := h
          have heq : (findValue? name properties).map
              (fun schema => SchemaNode.mk ((k.child "properties").child name) schema)
              = some m := hmap.symm.trans hfind
          cases hp : findValue? name properties with
          | none => simp [hp] at heq
          | some schema =>
              rw [hp] at heq
              cases heq
              rfl

/-- A way is a path of segments. -/
theorem at?_of_child? {n m : SchemaNode} {l : Label} (h : n.child? l = some m) :
    at? l.segments n = some m := by
  cases l with
  | items =>
      have hb : n.items = some m := h
      simp only [Label.segments, at?, hb]
  | additional =>
      simp only [child?] at h
      simp only [Label.segments, at?]
      exact h
  | allOf index =>
      have hb : n.allOf[index]? = some m := h
      simp only [Label.segments, at?, positionOf_toString, hb]
  | oneOf index =>
      have hb : n.oneOf[index]? = some m := h
      simp only [Label.segments, at?, positionOf_toString, hb]
  | anyOf index =>
      have hb : n.anyOf[index]? = some m := h
      simp only [Label.segments, at?, positionOf_toString, hb]
  | property name =>
      have hb : findValue? name n.properties = some m := h
      simp only [Label.segments, at?, hb]

/-! ## What is right below -/

section Children

variable {n m : SchemaNode} {l : Label}

theorem mem_children_allOf (h : m ∈ n.allOf) : m ∈ n.children := by
  simp only [SchemaNode.children, List.mem_append]
  exact Or.inl (Or.inl (Or.inl (Or.inl (Or.inl h))))

theorem mem_children_oneOf (h : m ∈ n.oneOf) : m ∈ n.children := by
  simp only [SchemaNode.children, List.mem_append]
  exact Or.inl (Or.inl (Or.inl (Or.inl (Or.inr h))))

theorem mem_children_anyOf (h : m ∈ n.anyOf) : m ∈ n.children := by
  simp only [SchemaNode.children, List.mem_append]
  exact Or.inl (Or.inl (Or.inl (Or.inr h)))

theorem mem_children_properties (h : m ∈ n.properties.map Prod.snd) :
    m ∈ n.children := by
  simp only [SchemaNode.children, List.mem_append]
  exact Or.inl (Or.inl (Or.inr h))

theorem mem_children_items (h : n.items = some m) : m ∈ n.children := by
  simp only [SchemaNode.children, List.mem_append]
  exact Or.inl (Or.inr (Option.mem_toList.mpr h))

theorem mem_children_additional (h : n.additional = .described m) :
    m ∈ n.children := by
  simp only [SchemaNode.children, List.mem_append, h]
  exact Or.inr List.mem_cons_self

/-- What is at the end of a way is right below. -/
theorem mem_children_of_child? (h : n.child? l = some m) : m ∈ n.children := by
  cases l with
  | items => exact mem_children_items h
  | additional =>
      simp only [child?] at h
      split at h
      · rename_i below hb
        cases h
        exact mem_children_additional hb
      · cases h
  | allOf index => exact mem_children_allOf (List.mem_of_getElem? h)
  | oneOf index => exact mem_children_oneOf (List.mem_of_getElem? h)
  | anyOf index => exact mem_children_anyOf (List.mem_of_getElem? h)
  | property name => exact mem_children_properties (List.mem_map_of_mem (mem_of_findValue? h))

/-- What every way keeps is kept by segments. -/
theorem at?_invariant {P : SchemaNode → Prop}
    (hstep : ∀ (n : SchemaNode) (l : Label) (m : SchemaNode), n.child? l = some m → P n → P m)
    {segments : List String} (h : n.at? segments = some m) (hn : P n) : P m := by
  fun_induction SchemaNode.at? segments n with
  | case1 n =>
      cases h
      exact hn
  | case2 rest n below hb ih =>
      have hc : n.child? .items = some below := hb
      exact ih h (hstep n _ below hc hn)
  | case4 rest n below hb ih =>
      have hc : n.child? .additional = some below := by
        simp only [SchemaNode.child?, hb]
      exact ih h (hstep n _ below hc hn)
  | case6 index rest n below hb ih =>
      have hc : n.child? (.allOf (positionOf index)) = some below := hb
      exact ih h (hstep n _ below hc hn)
  | case8 index rest n below hb ih =>
      have hc : n.child? (.oneOf (positionOf index)) = some below := hb
      exact ih h (hstep n _ below hc hn)
  | case10 index rest n below hb ih =>
      have hc : n.child? (.anyOf (positionOf index)) = some below := hb
      exact ih h (hstep n _ below hc hn)
  | case12 name rest n below hb ih =>
      have hc : n.child? (.property name) = some below := hb
      exact ih h (hstep n _ below hc hn)
  | _ => cases h

end Children

/-- The names of the properties of a tidy node are different. -/
theorem nodup_properties {n : SchemaNode} (h : n.schema.Tidy) :
    (n.properties.map Prod.fst).Nodup := by
  obtain ⟨k, schema⟩ := n
  cases h with
  | reference target => exact List.nodup_nil
  | inline keywords _ _ _ hnodup _ _ _ =>
      rw [properties, List.map_map]
      exact hnodup

/-- The nodes below a tidy node are at the ends of ways. -/
theorem child?_of_mem_children {n m : SchemaNode} (h : n.schema.Tidy) (hmem : m ∈ n.children) :
    ∃ l, n.child? l = some m := by
  simp only [children, List.mem_append] at hmem
  rcases hmem with ((((hm | hm) | hm) | hm) | hm) | hm
  · obtain ⟨index, hi⟩ := List.getElem?_of_mem hm
    exact ⟨.allOf index, hi⟩
  · obtain ⟨index, hi⟩ := List.getElem?_of_mem hm
    exact ⟨.oneOf index, hi⟩
  · obtain ⟨index, hi⟩ := List.getElem?_of_mem hm
    exact ⟨.anyOf index, hi⟩
  · obtain ⟨entry, hentry, rfl⟩ := List.mem_map.mp hm
    exact ⟨.property entry.1, findValue?_of_mem (nodup_properties h) hentry⟩
  · exact ⟨.items, Option.mem_toList.mp hm⟩
  · refine ⟨.additional, ?_⟩
    split at hm
    · rename_i below hb
      rw [List.mem_singleton.mp hm]
      unfold child?
      rw [hb]
    · cases hm

theorem tidy_of_getElem?_listed {n m : SchemaNode} {keyword : String} {schemas : List Schema}
    {index : Nat} (htidy : ∀ s ∈ schemas, s.Tidy)
    (h : (n.listed keyword schemas)[index]? = some m) : m.schema.Tidy := by
  rw [listed, List.getElem?_map, List.getElem?_zipIdx] at h
  cases hs : schemas[index]? with
  | none => simp [hs] at h
  | some schema =>
      rw [hs] at h
      cases h
      exact htidy schema (List.mem_of_getElem? hs)

/-- What is below a tidy node is tidy. -/
theorem tidy_of_child? {n m : SchemaNode} {l : Label} (htidy : n.schema.Tidy)
    (h : n.child? l = some m) : m.schema.Tidy := by
  obtain ⟨k, schema⟩ := n
  cases htidy with
  | reference target =>
      cases l with
      | items => cases h
      | additional => cases h
      | property name => cases h
      | _ => simp [child?, allOf, oneOf, anyOf] at h
  | inline keywords hall hone hany hnodup hprops hitems hadd =>
      cases l with
      | items =>
          rename_i items additional
          cases items with
          | none => cases h
          | some below =>
              cases h
              exact hitems below rfl
      | additional =>
          rename_i items additional
          cases additional with
          | described below =>
              cases h
              exact hadd below rfl
          | _ => cases h
      | allOf index => exact tidy_of_getElem?_listed hall h
      | oneOf index => exact tidy_of_getElem?_listed hone h
      | anyOf index => exact tidy_of_getElem?_listed hany h
      | property name =>
          have hmem := mem_of_findValue? h
          obtain ⟨entry, hentry, heq⟩ := List.mem_map.mp hmem
          cases heq
          exact hprops entry hentry

end SchemaNode

end ApiTypes
