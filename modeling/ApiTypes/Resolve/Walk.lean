import ApiTypes.Document.Json
import ApiTypes.Mapping.Lookup
import ApiTypes.Model.TypeStore
import ApiTypes.Options
import ApiTypes.Resolve.Bounds
import ApiTypes.Resolve.Reference
import ApiTypes.Resolve.Target
import ApiTypes.Text.CamelCase

/-!
# Resolving schemas

The walk over the schemas of a description that gives each of them a type. What a schema becomes
is decided by the first of these that applies: a rule for the schema, constituents, alternatives,
and the type of the schema. A schema is resolved once and remembered, for each path with rules of
its own once more.

Objects, composed types and alternatives reserve their slot before the schemas in them are
resolved, so that a schema that contains itself finds the slot. Other schemas have nothing to be
found while they are being resolved; such a schema that contains itself is an error.

One step of the walk is written against a function for the schemas below, `SchemaNode → String →
Walk TypeId`. `resolveWithin` ties the knot with a budget, since every nested call is for another
schema: the number of schemas bounds the depth of the walk.
-/

set_option autoImplicit false

namespace ApiTypes

/-- What a walk changes: the types, and the schemas that are being resolved. -/
structure WalkState where
  /-- The types so far. -/
  types : TypeStore := {}
  /-- The schemas that are being resolved, innermost first. -/
  pending : List MemoKey := []

instance : Inhabited WalkState := ⟨{}⟩

/-- A part of the walk. What it changed stays changed if it fails. -/
abbrev Walk := ExceptT Error (StateM WalkState)

namespace Walk

/-- Takes a result that does not depend on the state. -/
def ofExcept {α : Type} : Except Error α → Walk α
  | .ok a => pure a
  | .error e => throw e

/-- Changes the types and tells something about the change. -/
def onTypes {α : Type} (f : TypeStore → α × TypeStore) : Walk α :=
  modifyGet fun s => let (a, types) := f s.types; (a, { s with types })

/-- Changes the types. -/
def modifyTypes (f : TypeStore → TypeStore) : Walk Unit :=
  modify fun s => { s with types := f s.types }

/-- Runs a part of the walk and tells how it ended. -/
def attempt {α : Type} (w : Walk α) : Walk (Except Error α) :=
  ExceptT.lift w.run

end Walk

/-- What a walk works with. -/
structure Resolver where
  /-- The description. -/
  description : Description
  /-- The options. -/
  options : Options

/-- A schema that is resolved for one use: its type, and the annotations of the use. -/
structure Resolved where
  /-- The type. -/
  type : TypeId
  /-- The annotations of the use. -/
  annotations : List Annotation

/-- The annotation that a rule adds. -/
def Rule.annotation? (rule : Rule) : Option Annotation := rule.annotation

/-- What rules may look at in a node of the given name; only components have a name for them. -/
def SchemaNode.features (n : SchemaNode) (name : String) (isNamed : Bool) : SchemaFeatures :=
  { name := if isNamed then some name else none, type := n.type, format := n.format }

namespace Resolver

/-- The mapping documents. -/
def mappings (r : Resolver) : List Mapping := r.options.mappings

/-- The key under which the resolution of a schema is remembered. -/
def memoKey (r : Resolver) (path : Option String) (schema : SchemaKey) : MemoKey :=
  { scope := path.filter (Lookup.hasPathTypes r.mappings), schema }

/-- The names of the type that is generated for a schema. -/
def typeName (r : Resolver) (name : String) : TypeName :=
  ⟨name, Text.upperCamel name ++ r.options.modelNameSuffix⟩

/-! ## Annotations -/

/-- The annotations of a node: those of rules, then those for its constraints. -/
def nodeAnnotations (r : Resolver) (path : Option String) (n : SchemaNode)
    (features : SchemaFeatures) : List Annotation :=
  (Lookup.annotateRules r.mappings path .schema features).filterMap (·.annotation?)
    ++ n.constraints.annotations r.options.validation

/-- Adds the annotations of a node to its type. -/
def annotate (r : Resolver) (path : Option String) (n : SchemaNode) (features : SchemaFeatures)
    (id : TypeId) : Walk Unit :=
  Walk.modifyTypes fun types => (r.nodeAnnotations path n features).foldl (·.annotate id) types

/-! ## Types that rules give -/

/-- The target of a rule. -/
def ruleTarget (r : Resolver) (rule : Rule) : Except Error Target :=
  match Target.ofRule? r.options.packageName rule with
  | some target => .ok target
  | none => .error (.noTarget rule.source.type)

/-- The type that a target makes. -/
def mappedType (target : Target) (generics : List TypeId) (isArray : Bool)
    (constraints : Constraints) (deprecated : Bool) : ModelType :=
  .mapped target.name target.package generics isArray constraints deprecated

mutual

/-- Adds a type argument, its own type arguments first. -/
def addTarget (types : TypeStore) : Target → TypeId × TypeStore
  | ⟨qualifiedName, args⟩ =>
      let (generics, types) := addTargets types args
      types.add (mappedType ⟨qualifiedName, args⟩ generics false {} false)

/-- Adds type arguments one by one. -/
def addTargets (types : TypeStore) : List Target → List TypeId × TypeStore
  | [] => ([], types)
  | target :: rest =>
      let (id, types) := addTarget types target
      let (ids, types) := addTargets types rest
      (id :: ids, types)

end

/-- The type that a rule gives a node. The items of an array become the type argument of a rule
for arrays that has none of its own. -/
def buildFromRule (r : Resolver) (recur : SchemaNode → String → Walk TypeId) (n : SchemaNode)
    (name : String) (rule : Rule) : Walk TypeId := do
  let target ← Walk.ofExcept (r.ruleTarget rule)
  let generics ←
    if rule.source.type = "array" ∧ n.type = some "array" ∧ target.args.isEmpty then
      match n.items with
      | some items => do
          let item ← recur items (name ++ "Item")
          pure [item]
      | none => throw (.invalidItem n.key.text)
    else Walk.onTypes fun types => addTargets types target.args
  Walk.onTypes (·.add (mappedType target generics rule.isArray n.constraints n.deprecated))

/-! ## Types that schemas have by themselves -/

/-- Whether a type may be a constituent of a composed type: an object, a composed type, or a type
that is not known yet. -/
def isConstituent : Option ModelType → Bool
  | none => true
  | some (.object ..) => true
  | some (.allOf ..) => true
  | some _ => false

/-- Resolves the constituents of a composed type and keeps those that may be one. -/
def resolveConstituents (recur : SchemaNode → String → Walk TypeId) (name : String) :
    Nat → List SchemaNode → Walk (List TypeId)
  | _, [] => pure []
  | index, n :: rest => do
      let id ← recur n (name ++ "AllOf" ++ toString index)
      let found := (← get).types.get? id
      let ids ← resolveConstituents recur name (index + 1) rest
      -- A type that is still unknown now is kept, whatever becomes of it.
      pure (if isConstituent found then id :: ids else ids)

/-- Resolves alternatives. -/
def resolveAlternatives (recur : SchemaNode → String → Walk TypeId) (name label : String) :
    Nat → List SchemaNode → Walk (List TypeId)
  | _, [] => pure []
  | index, n :: rest => do
      let id ← recur n (name ++ label ++ toString index)
      let ids ← resolveAlternatives recur name label (index + 1) rest
      pure (id :: ids)

/-- Resolves properties. -/
def resolveProperties (recur : SchemaNode → String → Walk TypeId) (name : String) :
    List (String × SchemaNode) → Walk (List (String × TypeId))
  | [] => pure []
  | (property, n) :: rest => do
      let id ← recur n (Text.upperCamel (name ++ " " ++ property))
      let ids ← resolveProperties recur name rest
      pure ((property, id) :: ids)

/-- Reserves a slot, lets it be found, and fills it once its type is known. -/
def reserving (key : MemoKey) (make : Walk ModelType) : Walk TypeId := do
  let id ← Walk.onTypes TypeStore.reserve
  Walk.modifyTypes (·.remember key id)
  let type ← make
  Walk.modifyTypes (·.fill id type)
  pure id

/-- The composed type of a node. -/
def buildAllOf (r : Resolver) (recur : SchemaNode → String → Walk TypeId) (n : SchemaNode)
    (name : String) (key : MemoKey) : Walk TypeId :=
  reserving key do
    let items ← resolveConstituents recur name 0 n.allOf
    pure (.allOf (r.typeName name) r.options.modelPackage items n.deprecated)

/-- The type of a node with alternatives. -/
def buildOneOf (r : Resolver) (recur : SchemaNode → String → Walk TypeId) (n : SchemaNode)
    (name : String) (key : MemoKey) (label : String) (alternatives : List SchemaNode) :
    Walk TypeId :=
  reserving key do
    let items ← resolveAlternatives recur name label 0 alternatives
    pure (.oneOf (r.typeName name) r.options.modelPackage items r.options.oneOfInterface
      n.deprecated)

/-- The type of a node with properties. -/
def buildObject (r : Resolver) (recur : SchemaNode → String → Walk TypeId) (n : SchemaNode)
    (name : String) (key : MemoKey) : Walk TypeId :=
  reserving key do
    let properties ← resolveProperties recur name n.properties
    pure (.object (r.typeName name) r.options.modelPackage (.ofList properties) n.required
      n.constraints n.deprecated)

/-- The array of the items of a node. -/
def buildArray (recur : SchemaNode → String → Walk TypeId) (n : SchemaNode) (name : String) :
    Walk TypeId :=
  match n.items with
  | none => throw (.invalidItem n.key.text)
  | some items => do
      let item ← recur items (name ++ "Item")
      Walk.onTypes (·.add (.array item n.constraints n.deprecated))

/-- The type of an object without properties: a map if it says what other properties are. -/
def buildFreeForm (recur : SchemaNode → String → Walk TypeId) (n : SchemaNode) (name : String) :
    Walk TypeId :=
  match n.additional with
  | .none => Walk.onTypes (·.add (.primitive .object n.constraints n.deprecated))
  | .any => do
      let value ← Walk.onTypes (·.add (.primitive .object {} false))
      Walk.onTypes (·.add (.map value n.constraints n.deprecated))
  | .described schema => do
      let value ← recur schema (name ++ "Value")
      Walk.onTypes (·.add (.map value n.constraints n.deprecated))

/-- The text of a value of an enumeration; null has none. -/
def enumText? : Value → Option String
  | .null => none
  | .str text => some text
  | other => some other.compact

/-- The enumeration of a node. -/
def enumType (r : Resolver) (n : SchemaNode) (name : String) : ModelType :=
  .enum (r.typeName name) r.options.modelPackage (n.enum.filterMap enumText?) n.constraints
    n.deprecated

/-- How a type and format are told in an error. -/
def typeLabel (type : String) : Option String → String
  | some format => type ++ ":" ++ format
  | none => type

/-- The built-in type of a node. -/
def buildPrimitive (n : SchemaNode) (type : String) : Walk TypeId :=
  match Primitive.ofSchema? type n.format with
  | some kind => Walk.onTypes (·.add (.primitive kind n.constraints n.deprecated))
  | none => throw (.unknownSchemaType (typeLabel type n.format) n.key.text)

/-- The type of a node by its type and properties. -/
def buildByType (r : Resolver) (recur : SchemaNode → String → Walk TypeId) (n : SchemaNode)
    (name : String) (key : MemoKey) : Walk TypeId :=
  match n.type with
  | some "array" => buildArray recur n name
  | some "object" =>
      if n.properties.isEmpty then buildFreeForm recur n name
      else r.buildObject recur n name key
  | some "string" =>
      if n.enum.isEmpty then buildPrimitive n "string"
      else Walk.onTypes (·.add (r.enumType n name))
  | some type => buildPrimitive n type
  | none =>
      if n.properties.isEmpty then throw (.unknownSchemaType "<none>" n.key.text)
      else r.buildObject recur n name key

/-- The type of a node without a rule. -/
def buildByShape (r : Resolver) (recur : SchemaNode → String → Walk TypeId) (n : SchemaNode)
    (name : String) (key : MemoKey) : Walk TypeId :=
  if !n.allOf.isEmpty then r.buildAllOf recur n name key
  else if !n.oneOf.isEmpty then r.buildOneOf recur n name key "OneOf" n.oneOf
  else if !n.anyOf.isEmpty then r.buildOneOf recur n name key "AnyOf" n.anyOf
  else r.buildByType recur n name key

/-- The type of a node. -/
def build (r : Resolver) (path : Option String) (recur : SchemaNode → String → Walk TypeId)
    (n : SchemaNode) (name : String) (features : SchemaFeatures) (key : MemoKey) : Walk TypeId :=
  match Lookup.typeRule? r.mappings path .schema features with
  | some rule => r.buildFromRule recur n name rule
  | none => r.buildByShape recur n name key

/-! ## The walk -/

/-- Resolves a node that is no reference and was not resolved before. -/
def resolveNew (r : Resolver) (path : Option String) (recur : SchemaNode → String → Walk TypeId)
    (n : SchemaNode) (name : String) (isNamed : Bool) (key : MemoKey) : Walk TypeId := do
  if key ∈ (← get).pending then throw (.cyclicReference key.schema.text)
  modify fun s => { s with pending := key :: s.pending }
  let features := n.features name isNamed
  -- The schema is pending no longer, whether it got a type or not.
  let built ← Walk.attempt (r.build path recur n name features key)
  modify fun s => { s with pending := s.pending.erase key }
  let id ← Walk.ofExcept built
  Walk.modifyTypes (·.remember key id)
  r.annotate path n features id
  pure id

/-- Resolves a node: references are followed, and what was resolved before is found. -/
def resolveStep (r : Resolver) (path : Option String) (recur : SchemaNode → String → Walk TypeId)
    (n : SchemaNode) (name : String) (isNamed : Bool) : Walk TypeId := do
  let (n, name, isNamed) :=
    match ← Walk.ofExcept (r.description.dereference n) with
    | some (target, component) => (target, component, true)
    | none => (n, name, isNamed)
  let key := r.memoKey path n.key
  match (← get).types.lookup key with
  | some id => pure id
  | none => r.resolveNew path recur n name isNamed key

/-- Resolves a node, nested calls up to a depth. -/
def resolveWithin (r : Resolver) (path : Option String) :
    Nat → SchemaNode → String → Bool → Walk TypeId
  | 0, n, _, _ => throw (.tooDeep n.key.text)
  | depth + 1, n, name, isNamed =>
      r.resolveStep path (fun below belowName => r.resolveWithin path depth below belowName false)
        n name isNamed

/-- The number of schemas that a walk from a node may meet, and one more. -/
def depthFor (r : Resolver) (n : SchemaNode) : Nat :=
  r.description.schemaCount + n.schema.count + 1

/-- Resolves a node. -/
def resolve (r : Resolver) (path : Option String) (n : SchemaNode) (name : String)
    (isNamed : Bool) : Walk TypeId :=
  r.resolveWithin path (r.depthFor n) n name isNamed

/-- Resolves a component. -/
def resolveComponent (r : Resolver) (n : SchemaNode) (name : String) : Walk TypeId :=
  r.resolve none n name true

/-- The annotations that rules add to a node for its use alone. -/
def usageAnnotations (r : Resolver) (path : Option String) (use : Use) (features : SchemaFeatures) :
    List Annotation :=
  (Lookup.usageAnnotateRules r.mappings path use features).filterMap (·.annotation?)

/-- Resolves a node for one use. A rule for the name or the content type of the use comes first,
then a rule for the schema in this use; both give the use a type of its own. Else the use shares
the type of the schema. -/
def resolveUse (r : Resolver) (path : Option String) (use : Use) (n : SchemaNode)
    (name : String) : Walk Resolved := do
  let (n, name, isNamed) :=
    match ← Walk.ofExcept (r.description.dereference n) with
    | some (target, component) => (target, component, true)
    | none => (n, name, false)
  let features := n.features name isNamed
  let annotations := r.usageAnnotations path use features
  match Lookup.useRule? r.mappings path use with
  | some rule => do
      -- The target stands alone here: its type arguments are not taken over.
      let target ← Walk.ofExcept (r.ruleTarget rule)
      let id ← Walk.onTypes
        (·.add (mappedType target [] rule.isArray n.constraints n.deprecated))
      r.annotate path n features id
      pure ⟨id, annotations⟩
  | none =>
      match Lookup.usageTypeRule? r.mappings path use features with
      | some rule => do
          let recur (below : SchemaNode) (belowName : String) : Walk TypeId :=
            r.resolve path below belowName false
          let id ← r.buildFromRule recur n name rule
          r.annotate path n features id
          pure ⟨id, annotations⟩
      | none => do
          let id ← r.resolve path n name isNamed
          pure ⟨id, annotations⟩

end Resolver

end ApiTypes
