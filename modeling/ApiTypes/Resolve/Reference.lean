import ApiTypes.OpenApi.Description

/-!
# Chains of references

A reference may lead to a component that is a reference itself. The chain is followed to the first
schema that is none, and the last reference names it. A chain comes back to a reference that was
followed already, or ends, before it is longer than there are components: every reference after
the first one stands in a component, and a component holds one reference.
-/

set_option autoImplicit false

namespace ApiTypes.Description

/-- Follows a reference, which stands at `location`, past references that are not among those
followed. -/
def followFrom (d : Description) :
    Nat → List String → String → SchemaKey → Except Error (SchemaNode × String)
  | 0, _, _, location => .error (.cyclicReference location.text)
  | budget + 1, followed, reference, location =>
      if reference ∈ followed then .error (.cyclicReference location.text)
      else
        match d.resolve? reference with
        | none => .error (.unresolvableReference reference location.text)
        | some target =>
            match target.reference? with
            | some next => d.followFrom budget (reference :: followed) next target.key
            | none => .ok (target, Pointer.lastSegment reference)

/-- Follows a reference to the first schema that is none; tells the node and the name of the
component. -/
def follow (d : Description) (reference : String) (location : SchemaKey) :
    Except Error (SchemaNode × String) :=
  d.followFrom (d.schemas.length + 2) [] reference location

/-- The node that a node stands for and its name, if the node is a reference. -/
def dereference (d : Description) (n : SchemaNode) :
    Except Error (Option (SchemaNode × String)) :=
  match n.reference? with
  | none => .ok none
  | some reference => (d.follow reference n.key).map some

end ApiTypes.Description
