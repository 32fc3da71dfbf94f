import ApiTypes.Model.Annotation
import ApiTypes.Model.ModelType
import ApiTypes.Pointer

/-!
# The store of resolved types

Types stand in numbered slots, each with its annotations. A slot may be reserved before its type
is known and filled later. The store also remembers which schema became which type; a schema of a
path with rules of its own is remembered under that path.
-/

set_option autoImplicit false

namespace ApiTypes

/-- What the resolution of a schema is remembered under. -/
structure MemoKey where
  /-- The path, if it has rules for schemas. -/
  scope : Option String
  /-- The schema. -/
  schema : SchemaKey
  deriving DecidableEq

/-- A slot. -/
structure Slot where
  /-- The type; none while the slot is only reserved. -/
  type : Option ModelType := none
  /-- The annotations in the order in which they were added. -/
  annotations : List Annotation := []

instance : Inhabited Slot := ⟨{}⟩

/-- The store of resolved types. -/
structure TypeStore where
  /-- The slots in the order in which they were taken. -/
  slots : Array Slot := #[]
  /-- What schemas became, the last one remembered first. -/
  memo : List (MemoKey × TypeId) := []

namespace TypeStore

instance : Inhabited TypeStore := ⟨{}⟩

/-- The number of slots. -/
def size (s : TypeStore) : Nat := s.slots.size

/-- Adds a type in a slot of its own. -/
def add (s : TypeStore) (t : ModelType) : TypeId × TypeStore :=
  (s.size, { s with slots := s.slots.push { type := some t } })

/-- Reserves a slot. -/
def reserve (s : TypeStore) : TypeId × TypeStore :=
  (s.size, { s with slots := s.slots.push {} })

/-- Fills a slot. -/
def fill (s : TypeStore) (id : TypeId) (t : ModelType) : TypeStore :=
  { s with slots := s.slots.modify id fun slot => { slot with type := some t } }

/-- The type in a slot. -/
def get? (s : TypeStore) (id : TypeId) : Option ModelType :=
  (s.slots[id]?).bind (·.type)

/-- Whether there is no type in a slot, or no such slot. -/
def isPending (s : TypeStore) (id : TypeId) : Bool := (s.get? id).isNone

/-- What a schema became. -/
def lookup (s : TypeStore) (key : MemoKey) : Option TypeId := s.memo.lookup key

/-- Remembers what a schema became. -/
def remember (s : TypeStore) (key : MemoKey) (id : TypeId) : TypeStore :=
  { s with memo := (key, id) :: s.memo }

/-- Adds an annotation to a list unless the same one is there. -/
def addAnnotation (annotations : List Annotation) (a : Annotation) : List Annotation :=
  if annotations.any fun other => other.same a then annotations else annotations ++ [a]

/-- Adds an annotation to a slot unless the same one is there. -/
def annotate (s : TypeStore) (id : TypeId) (a : Annotation) : TypeStore :=
  { s with slots := s.slots.modify id fun slot =>
      { slot with annotations := addAnnotation slot.annotations a } }

/-- The annotations of a slot. -/
def annotations (s : TypeStore) (id : TypeId) : List Annotation :=
  ((s.slots[id]?).map (·.annotations)).getD []

end TypeStore

end ApiTypes
