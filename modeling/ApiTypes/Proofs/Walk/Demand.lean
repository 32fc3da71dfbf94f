import ApiTypes.Proofs.Store.Renaming
import ApiTypes.Proofs.Store.View
import ApiTypes.Proofs.Walk.Outcome

/-!
# What a schema demands

What becomes of a schema is decided before any schema below it is looked at: by the rule that wins
for it, or else by its own shape. A `Demand` is that decision as data. It is an error, a block of
types that needs no other schema, a type around that of one other schema, or a type with a slot of
its own around those of several schemas. In the types of a demand a number is a place: the place
of a type in its block, or of a schema among those below.

`Resolver.demand` gives the demand of a schema, and meeting the demand is what the walk does
(`build_eq_meet`). All that is proved about the walk is proved about the four kinds of demand.
-/

set_option autoImplicit false

namespace ApiTypes

/-- A schema under a name, and whether rules for names may look at the name. -/
structure Visit where
  /-- The schema. -/
  node : SchemaNode
  /-- The name. -/
  name : String
  /-- Whether the name is that of a component. -/
  isNamed : Bool

/-- What rules may look at in a visit. -/
def Visit.features (v : Visit) : SchemaFeatures := v.node.features v.name v.isNamed

/-- A schema below another one, and the name that it gets there. -/
structure Child where
  /-- The schema. -/
  node : SchemaNode
  /-- The name. -/
  name : String

/-- The visit of a schema below another one. -/
def Child.visit (c : Child) : Visit := ⟨c.node, c.name, false⟩

/-- What a schema demands. -/
inductive Demand where
  /-- Nothing can be demanded. -/
  | fault (e : Error)
  /-- Types that need no other schema; the last one is the type of the schema, and a number is
  the place of an earlier one. -/
  | block (inner : List ModelType) (last : ModelType)
  /-- A type around that of one other schema, which every number stands for. -/
  | wrapper (item : Child) (shape : ModelType)
  /-- A type that may be found while the schemas below are resolved; a number is the place of one
  of them. -/
  | composite (children : List Child) (shape : ModelType)

namespace Demand

/-- The schemas that a demand is about. -/
def children : Demand → List Child
  | fault _ => []
  | block _ _ => []
  | wrapper item _ => [item]
  | composite children _ => children

/-- Whether the type may be found while the schemas below are resolved. -/
def isComposite : Demand → Bool
  | composite _ _ => true
  | _ => false

/-- The type that a shape becomes with the types that were found in its places. Constituents
that may be none are left out. -/
def filled (shape : ModelType) (found : List (TypeId × Bool)) : ModelType :=
  (shape.keepItems fun i => (found.map Prod.snd).getD i false).rename
    fun i => (found.map Prod.fst).getD i 0

end Demand

/-- Adds a block of types; tells the number of the last one. -/
def TypeStore.addBlock (s : TypeStore) (inner : List ModelType) (last : ModelType) :
    TypeId × TypeStore :=
  (s.size + inner.length, s.addAll ((inner ++ [last]).map (·.rename (s.size + ·))))

/-! ## Type arguments as a block -/

namespace Target

mutual

/-- The number of types that a type argument needs. -/
def count : Target → Nat
  | ⟨_, args⟩ => countAll args + 1

/-- The number of types that type arguments need. -/
def countAll : List Target → Nat
  | [] => 0
  | t :: rest => count t + countAll rest

end

/-- The numbers of type arguments, the first type that they need having the number `start`. -/
def places (start : Nat) : List Target → List TypeId
  | [] => []
  | ⟨_, args⟩ :: rest => (start + countAll args) :: places (start + (countAll args + 1)) rest

mutual

/-- The types that a type argument needs, the first of them having the number `start`. -/
def typesFrom (start : Nat) : Target → List ModelType
  | ⟨name, args⟩ =>
      allTypesFrom start args
        ++ [Resolver.mappedType ⟨name, args⟩ (places start args) false {} false]

/-- The types that type arguments need, the first of them having the number `start`. -/
def allTypesFrom (start : Nat) : List Target → List ModelType
  | [] => []
  | t :: rest => typesFrom start t ++ allTypesFrom (start + count t) rest

end

mutual

theorem length_typesFrom (start : Nat) : ∀ t : Target, (typesFrom start t).length = count t
  | ⟨name, args⟩ => by
      rw [typesFrom, count, List.length_append, length_allTypesFrom start args]
      rfl

theorem length_allTypesFrom (start : Nat) :
    ∀ ts : List Target, (allTypesFrom start ts).length = countAll ts
  | [] => rfl
  | t :: rest => by
      rw [allTypesFrom, countAll, List.length_append, length_typesFrom start t,
        length_allTypesFrom _ rest]

end

theorem places_add (base start : Nat) (ts : List Target) :
    places (base + start) ts = (places start ts).map (base + ·) := by
  induction ts generalizing start with
  | nil => rfl
  | cons t rest ih =>
      obtain ⟨name, args⟩ := t
      rw [places, places, List.map_cons, Nat.add_assoc, Nat.add_assoc, ih]

/-- Type arguments stand among the types that they need. -/
theorem lt_of_mem_places {start i : Nat} {ts : List Target} (h : i ∈ places start ts) :
    start ≤ i ∧ i < start + countAll ts := by
  induction ts generalizing start with
  | nil => cases h
  | cons t rest ih =>
      obtain ⟨name, args⟩ := t
      rw [places, List.mem_cons] at h
      rw [countAll, count]
      rcases h with rfl | h
      · omega
      · have := ih h
        omega

mutual

theorem typesFrom_add (base start : Nat) :
    ∀ t : Target, typesFrom (base + start) t = (typesFrom start t).map (·.rename (base + ·))
  | ⟨name, args⟩ => by
      rw [typesFrom, typesFrom, List.map_append, allTypesFrom_add base start args,
        places_add base start args]
      rfl

theorem allTypesFrom_add (base start : Nat) : ∀ ts : List Target,
    allTypesFrom (base + start) ts = (allTypesFrom start ts).map (·.rename (base + ·))
  | [] => rfl
  | t :: rest => by
      rw [allTypesFrom, allTypesFrom, List.map_append, typesFrom_add base start t, Nat.add_assoc,
        allTypesFrom_add base _ rest]

end

mutual

/-- Adding a type argument adds the types that it needs. -/
theorem addTarget_eq (s : TypeStore) : ∀ t : Target,
    Resolver.addTarget s t = (s.size + countAll t.args, s.addAll (typesFrom s.size t))
  | ⟨name, args⟩ => by
      rw [Resolver.addTarget, addTargets_eq s args, typesFrom, TypeStore.addAll_append]
      show ((s.addAll (allTypesFrom s.size args)).size, _) = _
      rw [TypeStore.size_addAll, length_allTypesFrom]
      rfl

theorem addTargets_eq (s : TypeStore) : ∀ ts : List Target,
    Resolver.addTargets s ts = (places s.size ts, s.addAll (allTypesFrom s.size ts))
  | [] => rfl
  | ⟨name, args⟩ :: rest => by
      rw [Resolver.addTargets, addTarget_eq s ⟨name, args⟩, allTypesFrom,
        TypeStore.addAll_append]
      show (let (ids, types) :=
        Resolver.addTargets (s.addAll (typesFrom s.size ⟨name, args⟩)) rest
        ((s.size + countAll args) :: ids, types)) = _
      rw [addTargets_eq (s.addAll (typesFrom s.size ⟨name, args⟩)) rest, TypeStore.size_addAll,
        length_typesFrom]
      rfl

end

end Target

namespace Resolver

/-! ## The demand of a schema -/

/-- The demand of a rule that gives a schema its type. -/
def demandOfRule (r : Resolver) (n : SchemaNode) (name : String) (rule : Rule) : Demand :=
  match r.ruleTarget rule with
  | .error e => .fault e
  | .ok target =>
      if rule.source.type = "array" ∧ n.type = some "array" ∧ target.args.isEmpty then
        match n.items with
        | some items =>
            .wrapper ⟨items, name ++ "Item"⟩
              (mappedType target [0] rule.isArray n.constraints n.deprecated)
        | none => .fault (.invalidItem n.key.text)
      else
        .block (Target.allTypesFrom 0 target.args)
          (mappedType target (Target.places 0 target.args) rule.isArray n.constraints
            n.deprecated)

/-- Schemas of a list as children, named by their position. -/
def listedChildren (name label : String) : Nat → List SchemaNode → List Child
  | _, [] => []
  | index, n :: rest =>
      ⟨n, name ++ label ++ toString index⟩ :: listedChildren name label (index + 1) rest

/-- Properties as children. -/
def propertyChildren (name : String) (properties : List (String × SchemaNode)) : List Child :=
  properties.map fun (property, n) => ⟨n, Text.upperCamel (name ++ " " ++ property)⟩

/-- The demand of a node with alternatives. -/
def demandOfOneOf (r : Resolver) (n : SchemaNode) (name label : String)
    (alternatives : List SchemaNode) : Demand :=
  .composite (listedChildren name label 0 alternatives)
    (.oneOf (r.typeName name) r.options.modelPackage (List.range alternatives.length)
      r.options.oneOfInterface n.deprecated)

/-- The demand of a node with properties. -/
def demandOfObject (r : Resolver) (n : SchemaNode) (name : String) : Demand :=
  .composite (propertyChildren name n.properties)
    (.object (r.typeName name) r.options.modelPackage
      (.ofList ((n.properties.map Prod.fst).zip (List.range n.properties.length)))
      n.required n.constraints n.deprecated)

/-- The demand of a node without properties that is an object. -/
def demandOfFreeForm (n : SchemaNode) (name : String) : Demand :=
  match n.additional with
  | .none => .block [] (.primitive .object n.constraints n.deprecated)
  | .any => .block [.primitive .object {} false] (.map 0 n.constraints n.deprecated)
  | .described schema => .wrapper ⟨schema, name ++ "Value"⟩ (.map 0 n.constraints n.deprecated)

/-- The demand of a node that is built in. -/
def demandOfPrimitive (n : SchemaNode) (type : String) : Demand :=
  match Primitive.ofSchema? type n.format with
  | some kind => .block [] (.primitive kind n.constraints n.deprecated)
  | none => .fault (.unknownSchemaType (typeLabel type n.format) n.key.text)

/-- The demand of a node by its type and properties. -/
def demandOfType (r : Resolver) (n : SchemaNode) (name : String) : Demand :=
  match n.type with
  | some "array" =>
      match n.items with
      | none => .fault (.invalidItem n.key.text)
      | some items =>
          .wrapper ⟨items, name ++ "Item"⟩ (.array 0 n.constraints n.deprecated)
  | some "object" =>
      if n.properties.isEmpty then demandOfFreeForm n name else r.demandOfObject n name
  | some "string" =>
      if n.enum.isEmpty then demandOfPrimitive n "string" else .block [] (r.enumType n name)
  | some type => demandOfPrimitive n type
  | none =>
      if n.properties.isEmpty then .fault (.unknownSchemaType "<none>" n.key.text)
      else r.demandOfObject n name

/-- A type that is no container and no text is a primitive. -/
theorem demandOfType_of_ne {r : Resolver} {n : SchemaNode} {name type : String}
    (htype : n.type = some type)
    (harray : type ≠ "array") (hobject : type ≠ "object") (hstring : type ≠ "string") :
    r.demandOfType n name = demandOfPrimitive n type := by
  unfold demandOfType
  rw [htype]
  split
  · rename_i heq
    exact absurd (Option.some.inj heq) harray
  · rename_i heq
    exact absurd (Option.some.inj heq) hobject
  · rename_i heq
    exact absurd (Option.some.inj heq) hstring
  · rename_i heq
    rw [Option.some.inj heq]
  · rename_i heq
    cases heq

/-- The demand of a node without a rule. -/
def demandOfShape (r : Resolver) (n : SchemaNode) (name : String) : Demand :=
  if !n.allOf.isEmpty then
    .composite (listedChildren name "AllOf" 0 n.allOf)
      (.allOf (r.typeName name) r.options.modelPackage (List.range n.allOf.length) n.deprecated)
  else if !n.oneOf.isEmpty then r.demandOfOneOf n name "OneOf" n.oneOf
  else if !n.anyOf.isEmpty then r.demandOfOneOf n name "AnyOf" n.anyOf
  else r.demandOfType n name

/-- What a schema demands on a path. -/
def demand (r : Resolver) (path : Option String) (v : Visit) : Demand :=
  match Lookup.typeRule? r.mappings path .schema v.features with
  | some rule => r.demandOfRule v.node v.name rule
  | none => r.demandOfShape v.node v.name

/-! ## What may be demanded -/

section Cases

variable {P : Demand → Prop} {r : Resolver} {n : SchemaNode} {name : String}

/-- What a rule may demand. -/
theorem demandOfRule_cases {rule : Rule} (hfault : ∀ e, P (.fault e))
    (hitem : ∀ target items, n.items = some items →
      P (.wrapper ⟨items, name ++ "Item"⟩
        (mappedType target [0] rule.isArray n.constraints n.deprecated)))
    (hmapped : ∀ target : Target,
      P (.block (Target.allTypesFrom 0 target.args)
        (mappedType target (Target.places 0 target.args) rule.isArray n.constraints
          n.deprecated))) :
    P (r.demandOfRule n name rule) := by
  unfold demandOfRule
  split
  · exact hfault _
  · rename_i target _
    split
    · split
      · rename_i items hitems
        exact hitem target items hitems
      · exact hfault _
    · exact hmapped target

/-- What a schema may demand that is built in. -/
theorem demandOfPrimitive_cases {type : String} (hfault : ∀ e, P (.fault e))
    (hsingle : ∀ t : ModelType, t.references = [] → P (.block [] t)) :
    P (demandOfPrimitive n type) := by
  unfold demandOfPrimitive
  split
  · exact hsingle _ rfl
  · exact hfault _

/-- What a schema may demand by its type and properties. -/
theorem demandOfType_cases (hfault : ∀ e, P (.fault e))
    (hsingle : ∀ t : ModelType, t.references = [] → P (.block [] t))
    (hitems : ∀ items, n.items = some items →
      P (.wrapper ⟨items, name ++ "Item"⟩ (.array 0 n.constraints n.deprecated)))
    (hany : P (.block [.primitive .object {} false] (.map 0 n.constraints n.deprecated)))
    (hvalue : ∀ schema, n.additional = .described schema →
      P (.wrapper ⟨schema, name ++ "Value"⟩ (.map 0 n.constraints n.deprecated)))
    (hobject : P (r.demandOfObject n name)) : P (r.demandOfType n name) := by
  unfold demandOfType
  split
  · split
    · exact hfault _
    · rename_i items heq
      exact hitems items heq
  · split
    · unfold demandOfFreeForm
      split
      · exact hsingle _ rfl
      · exact hany
      · rename_i schema heq
        exact hvalue schema heq
    · exact hobject
  · split
    · exact demandOfPrimitive_cases hfault hsingle
    · exact hsingle _ rfl
  · exact demandOfPrimitive_cases hfault hsingle
  · split
    · exact hfault _
    · exact hobject

/-- What a schema without a rule may demand. -/
theorem demandOfShape_cases
    (hallOf : ¬ n.allOf = [] →
      P (.composite (listedChildren name "AllOf" 0 n.allOf)
        (.allOf (r.typeName name) r.options.modelPackage (List.range n.allOf.length)
          n.deprecated)))
    (halternatives : ∀ label alternatives, alternatives = n.oneOf ∨ alternatives = n.anyOf →
      P (r.demandOfOneOf n name label alternatives))
    (htype : P (r.demandOfType n name)) : P (r.demandOfShape n name) := by
  unfold demandOfShape
  split
  · rename_i hne
    rw [Bool.not_eq_true', List.isEmpty_eq_false_iff] at hne
    exact hallOf hne
  · split
    · exact halternatives _ _ (Or.inl rfl)
    · split
      · exact halternatives _ _ (Or.inr rfl)
      · exact htype

end Cases

/-! ## Meeting a demand -/

/-- Resolves schemas; tells of each what it became and whether that may be a constituent now. -/
def resolveEach (recur : SchemaNode → String → Walk TypeId) :
    List Child → Walk (List (TypeId × Bool))
  | [] => pure []
  | c :: rest => do
      let id ← recur c.node c.name
      let found := (← get).types.get? id
      let others ← resolveEach recur rest
      pure ((id, isConstituent found) :: others)

/-- Makes the type that a schema demands. -/
def meet (recur : SchemaNode → String → Walk TypeId) (key : MemoKey) : Demand → Walk TypeId
  | .fault e => throw e
  | .block inner last => Walk.onTypes fun s => s.addBlock inner last
  | .wrapper item shape => do
      let id ← recur item.node item.name
      Walk.onTypes fun s => s.add (shape.rename fun _ => id)
  | .composite children shape =>
      reserving key do
        let found ← resolveEach recur children
        pure (Demand.filled shape found)

end Resolver

end ApiTypes
