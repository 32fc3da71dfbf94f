import ApiTypes.Model.Constraints
import ApiTypes.Pointer

/-!
# Schemas

A schema as all versions of the format agree on it: a reference to another schema, or keywords and
the schemas below them. A schema node is a schema together with its key; the nodes below it have
keys that go on from its own.
-/

set_option autoImplicit false

universe u

namespace ApiTypes

/-- What a schema says about properties that it does not name. -/
inductive Additional (α : Type u) where
  /-- There are none. -/
  | none
  /-- They may be anything. -/
  | any
  /-- They are as described. -/
  | described (schema : α)

/-- The keywords of a schema that hold no schemas. -/
structure Keywords where
  /-- The type. -/
  type : Option String := none
  /-- The format. -/
  format : Option String := none
  /-- The names of the required properties. -/
  required : List String := []
  /-- The values of an enumeration. -/
  enum : List Value := []
  /-- The restrictions of the values. -/
  constraints : Constraints := {}
  /-- Whether the schema is deprecated. -/
  deprecated : Bool := false

instance : Inhabited Keywords := ⟨{}⟩

/-- A schema. -/
inductive Schema where
  /-- A reference to a schema elsewhere. -/
  | reference (target : String)
  /-- A schema of its own. -/
  | inline (keywords : Keywords) (allOf oneOf anyOf : List Schema)
      (properties : List (String × Schema)) (items : Option Schema)
      (additional : Additional Schema)

namespace Schema

instance : Inhabited Schema := ⟨reference ""⟩

mutual

/-- The number of schemas in a schema, itself included. -/
def count : Schema → Nat
  | reference _ => 1
  | inline _ allOf oneOf anyOf properties items additional =>
      1 + countList allOf + countList oneOf + countList anyOf + countMembers properties
        + countOption items + countAdditional additional

/-- The number of schemas in a list. -/
def countList : List Schema → Nat
  | [] => 0
  | s :: rest => count s + countList rest

/-- The number of schemas under names. -/
def countMembers : List (String × Schema) → Nat
  | [] => 0
  | (_, s) :: rest => count s + countMembers rest

/-- The number of schemas in an optional schema. -/
def countOption : Option Schema → Nat
  | none => 0
  | some s => count s

/-- The number of schemas for other properties. -/
def countAdditional : Additional Schema → Nat
  | .none => 0
  | .any => 0
  | .described s => count s

end

end Schema

/-- A schema and its key. -/
structure SchemaNode where
  /-- The identity of the node. -/
  key : SchemaKey
  /-- The schema. -/
  schema : Schema

namespace SchemaNode

instance : Inhabited SchemaNode := ⟨⟨default, default⟩⟩

/-- The reference, if the node is one. -/
def reference? (n : SchemaNode) : Option String :=
  match n.schema with
  | .reference target => some target
  | .inline .. => none

/-- The keywords; none at all for a reference. -/
def keywords (n : SchemaNode) : Keywords :=
  match n.schema with
  | .reference _ => {}
  | .inline keywords .. => keywords

/-- The type. -/
def type (n : SchemaNode) : Option String := n.keywords.type

/-- The format. -/
def format (n : SchemaNode) : Option String := n.keywords.format

/-- The names of the required properties. -/
def required (n : SchemaNode) : List String := n.keywords.required

/-- The values of an enumeration. -/
def enum (n : SchemaNode) : List Value := n.keywords.enum

/-- The restrictions of the values. -/
def constraints (n : SchemaNode) : Constraints := n.keywords.constraints

/-- Whether the schema is deprecated. -/
def deprecated (n : SchemaNode) : Bool := n.keywords.deprecated

/-- The nodes of a list of schemas under a keyword. -/
def listed (n : SchemaNode) (keyword : String) (schemas : List Schema) : List SchemaNode :=
  schemas.zipIdx.map fun (schema, index) => ⟨(n.key.child keyword).item index, schema⟩

/-- The constituents of a composed schema. -/
def allOf (n : SchemaNode) : List SchemaNode :=
  match n.schema with
  | .reference _ => []
  | .inline _ allOf .. => n.listed "allOf" allOf

/-- The alternatives of which exactly one holds. -/
def oneOf (n : SchemaNode) : List SchemaNode :=
  match n.schema with
  | .reference _ => []
  | .inline _ _ oneOf .. => n.listed "oneOf" oneOf

/-- The alternatives of which some hold. -/
def anyOf (n : SchemaNode) : List SchemaNode :=
  match n.schema with
  | .reference _ => []
  | .inline _ _ _ anyOf .. => n.listed "anyOf" anyOf

/-- The properties in the order of the document. -/
def properties (n : SchemaNode) : List (String × SchemaNode) :=
  match n.schema with
  | .reference _ => []
  | .inline _ _ _ _ properties _ _ =>
      properties.map fun (name, schema) => (name, ⟨(n.key.child "properties").child name, schema⟩)

/-- The schema of the items of an array. -/
def items (n : SchemaNode) : Option SchemaNode :=
  match n.schema with
  | .reference _ => none
  | .inline _ _ _ _ _ items _ => items.map fun schema => ⟨n.key.child "items", schema⟩

/-- What holds for other properties. -/
def additional (n : SchemaNode) : Additional SchemaNode :=
  match n.schema with
  | .reference _ => .none
  | .inline _ _ _ _ _ _ additional =>
      match additional with
      | .none => .none
      | .any => .any
      | .described schema => .described ⟨n.key.child "additionalProperties", schema⟩

/-- The nodes right below a node. -/
def children (n : SchemaNode) : List SchemaNode :=
  n.allOf ++ n.oneOf ++ n.anyOf ++ n.properties.map Prod.snd ++ n.items.toList ++
    match n.additional with
    | .described node => [node]
    | _ => []

end SchemaNode

end ApiTypes
