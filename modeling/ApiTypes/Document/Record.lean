import ApiTypes.Document.Value

/-!
# Records in documents

A record is a value with named fields. It may be written as an object, where fields that are not
known are ignored, or as a list that gives the fields in order. Reading returns nothing where a
field has the wrong shape.
-/

set_option autoImplicit false

universe u

namespace ApiTypes

/-- A value that is read as a record. -/
structure Record where
  /-- The names of the fields in order. -/
  names : List String
  /-- The object, or the list of fields. -/
  value : Value

/-- Reads a value as a record with the given fields. -/
def Value.record? (names : List String) (v : Value) : Option Record :=
  match v with
  | .object _ => some ⟨names, v⟩
  | .list items => if items.length ≤ names.length then some ⟨names, v⟩ else none
  | _ => none

namespace Record

/-- What is written for a field. -/
inductive Entry where
  /-- Nothing is written, which is allowed for this field. -/
  | absent
  /-- The list of fields ends before this one. -/
  | missing
  | present (v : Value)

/-- What is written for the field of a name. -/
def entry (r : Record) (name : String) : Entry :=
  match r.value with
  | .object members =>
      match findValue? name members with
      | some v => .present v
      | none => .absent
  | .list items =>
      match items[r.names.idxOf name]? with
      | some v => .present v
      | none => .missing
  | _ => .absent

/-- A field that may be null or absent. -/
def optional? {α : Type u} (r : Record) (name : String) (read : Value → Option α) :
    Option (Option α) :=
  match r.entry name with
  | .absent => some none
  | .missing => none
  | .present .null => some none
  | .present v => (read v).map some

/-- A field that is `default` where it is absent. -/
def orElse? {α : Type u} (r : Record) (name : String) (default : α) (read : Value → Option α) :
    Option α :=
  match r.entry name with
  | .present v => read v
  | _ => some default

/-- A field that must be there. -/
def required? {α : Type u} (r : Record) (name : String) (read : Value → Option α) : Option α :=
  match r.entry name with
  | .present v => read v
  | _ => none

end Record

namespace Value

/-- The boolean of a boolean value. -/
def bool? : Value → Option Bool
  | bool b => some b
  | _ => none

/-- The items of a list, each read by `read`. -/
def listOf? {α : Type u} (read : Value → Option α) : Value → Option (List α)
  | list items => items.mapM read
  | _ => none

/-- The members of an object, each value read by `read`. -/
def mapOf? {α : Type u} (read : Value → Option α) : Value → Option (List (String × α))
  | object members => members.mapM fun (name, v) => (read v).map fun a => (name, a)
  | _ => none

/-- A list of texts. -/
def texts? : Value → Option (List String) := listOf? text?

end Value

end ApiTypes
