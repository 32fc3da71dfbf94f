import ApiTypes.Decimal.Binary64
import ApiTypes.OrderedMap

/-!
# Document values

The data of a document, whether it was written as YAML or as JSON: a tree of nulls, booleans,
numbers, texts, lists and objects. The members of an object keep the order in which their names
were first written; `Value.ofMembers` lets the last of several values under one name win.
-/

set_option autoImplicit false

namespace ApiTypes

open Decimal (Binary64)

/-- A number of a document: an integer or a binary floating point number. -/
inductive Number where
  | int (n : Int)
  | real (x : Binary64)
  deriving DecidableEq

/-- The number as a binary floating point number. -/
def Number.toBinary : Number → Binary64
  | .int n => Binary64.ofInt n
  | .real x => x

/-- The data of a document. -/
inductive Value where
  | null
  | bool (b : Bool)
  | num (n : Number)
  | str (s : String)
  | list (items : List Value)
  | object (members : List (String × Value))

namespace Value

instance : Inhabited Value := ⟨null⟩

/-- The object with the given members; a name given twice has the first position and the last
value. -/
def ofMembers (members : List (String × Value)) : Value :=
  object (OrderedMap.ofList members).entries

/-- The member of an object under a name. -/
def get? (name : String) : Value → Option Value
  | object members => findValue? name members
  | _ => none

/-- The text of a text value. -/
def text? : Value → Option String
  | str s => some s
  | _ => none

/-- The members of an object. -/
def members? : Value → Option (List (String × Value))
  | object members => some members
  | _ => none

end Value

end ApiTypes
