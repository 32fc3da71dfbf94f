import ApiTypes.Document.Record
import ApiTypes.OpenApi.Schema

/-!
# Reading schemas

A part of a description may be read as a schema, as a list of schemas or as schemas under names,
depending on the keyword that it belongs to. `Reading.of` gives all readings of a value at once,
from the readings of what is in it, so that reading a schema is recursion on the value. What the
members of an object make is left to the version of the format.
-/

set_option autoImplicit false

universe u

namespace ApiTypes

/-- The readings of a value. -/
structure Reading where
  /-- The value itself. -/
  value : Value
  /-- The value as a schema or a reference. -/
  schema : Option Schema
  /-- The value as a schema that is no reference. -/
  inline : Option Schema
  /-- The value as a list of schemas. -/
  list : Option (List Schema)
  /-- The value as a list of schemas that are no references. -/
  inlineList : Option (List Schema)
  /-- The value as schemas under names. -/
  map : Option (List (String × Schema))

/-- How a version of the format reads schemas. -/
structure SchemaRules where
  /-- The reference that an object or a list is. -/
  reference : Value → Option String
  /-- The schema that the members of an object make. -/
  inline : List (String × Reading) → Option Schema

namespace Reading

/-- The readings of a value that is no list and no object. -/
def ofScalar (v : Value) : Reading := ⟨v, none, none, none, none, none⟩

mutual

/-- The readings of a value. -/
def of (rules : SchemaRules) : Value → Reading
  | .list items =>
      let readings := ofItems rules items
      let v := Value.list items
      { value := v
        schema := (rules.reference v).map .reference
        inline := none
        list := readings.mapM (·.schema)
        inlineList := readings.mapM (·.inline)
        map := none }
  | .object members =>
      let readings := ofMembers rules members
      let v := Value.object members
      let inline := rules.inline readings
      { value := v
        schema := ((rules.reference v).map .reference).or inline
        inline
        list := none
        inlineList := none
        map := readings.mapM fun (name, r) => r.schema.map fun s => (name, s) }
  | v => ofScalar v

/-- The readings of the items of a list. -/
def ofItems (rules : SchemaRules) : List Value → List Reading
  | [] => []
  | item :: rest => of rules item :: ofItems rules rest

/-- The readings of the members of an object. -/
def ofMembers (rules : SchemaRules) : List (String × Value) → List (String × Reading)
  | [] => []
  | (name, value) :: rest => (name, of rules value) :: ofMembers rules rest

end

/-- Whether the value is null. -/
def isNull (r : Reading) : Bool :=
  match r.value with
  | .null => true
  | _ => false

/-- A keyword that may be null or absent. -/
def optional? {α : Type u} (members : List (String × Reading)) (name : String)
    (read : Reading → Option α) : Option (Option α) :=
  match findValue? name members with
  | none => some none
  | some r => if r.isNull then some none else (read r).map some

/-- A keyword that is `default` where it is absent. -/
def orElse? {α : Type u} (members : List (String × Reading)) (name : String) (default : α)
    (read : Reading → Option α) : Option α :=
  match findValue? name members with
  | none => some default
  | some r => read r

/-- A keyword that must be there. -/
def required? {α : Type u} (members : List (String × Reading)) (name : String)
    (read : Reading → Option α) : Option α :=
  (findValue? name members).bind read

/-- The value as a text. -/
def text? (r : Reading) : Option String := r.value.text?

/-- The value as a boolean. -/
def bool? (r : Reading) : Option Bool := r.value.bool?

/-- The value as a list of texts. -/
def texts? (r : Reading) : Option (List String) := r.value.texts?

/-- The value as a list of any values. -/
def values? (r : Reading) : Option (List Value) := r.value.listOf? some

/-- The value as a count. -/
def count? (r : Reading) : Option Nat :=
  match r.value with
  | .num (.int n) => if 0 ≤ n then some n.toNat else none
  | _ => none

/-- The value as a number. -/
def number? (r : Reading) : Option Number :=
  match r.value with
  | .num n => some n
  | _ => none

end Reading

end ApiTypes
