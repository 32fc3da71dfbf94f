import ApiTypes.Proofs.OpenApi.Tidy
import ApiTypes.Proofs.Resolve.SameReferences

/-!
# Descriptions with components in another order

Two descriptions may differ in nothing but the order of the schemas of their components. References
lead to the same schemas in both, so that a walk over a given schema is the same
(`Reordered.sameReferences`), and the operations are the same. So the order in which the components
are resolved is all that two runs differ in.
-/

set_option autoImplicit false

namespace ApiTypes

/-- In lists of the same entries the same is found under a name, if no name stands twice. -/
theorem findValue?_perm {α : Type} {entries entries' : List (String × α)}
    (h : entries'.Perm entries) (hnodup : (entries.map Prod.fst).Nodup) (name : String) :
    findValue? name entries' = findValue? name entries := by
  have hnodup' : (entries'.map Prod.fst).Nodup := (h.map Prod.fst).nodup_iff.mpr hnodup
  cases hfound : findValue? name entries with
  | some a => exact findValue?_of_mem hnodup' (h.mem_iff.mpr (mem_of_findValue? hfound))
  | none =>
      cases hfound' : findValue? name entries' with
      | none => rfl
      | some a =>
          rw [findValue?_of_mem hnodup (h.mem_iff.mp (mem_of_findValue? hfound'))] at hfound
          cases hfound

theorem Schema.countMembers_perm {members members' : List (String × Schema)}
    (h : members'.Perm members) : countMembers members' = countMembers members := by
  induction h with
  | nil => rfl
  | cons entry _ ih => rw [countMembers, countMembers, ih]
  | swap entry entry' rest =>
      rw [countMembers, countMembers, countMembers, countMembers]
      omega
  | trans _ _ ih₁ ih₂ => rw [ih₁, ih₂]

/-- The descriptions differ in nothing but the order of the schemas of their components. -/
structure Description.Reordered (d d' : Description) : Prop where
  /-- Everything else is the same. -/
  eq_with : d' = { d with schemas := d'.schemas }
  /-- The schemas are the same in another order. -/
  perm : d'.schemas.Perm d.schemas

namespace Description.Reordered

variable {d d' : Description}

theorem refl (d : Description) : d.Reordered d := ⟨rfl, List.Perm.refl _⟩

/-- The components are the same in another order. -/
theorem components_perm (h : d.Reordered d') : d'.components.Perm d.components :=
  h.perm.map _

/-- The operations are the same. -/
theorem endpoints_eq (h : d.Reordered d') : d'.endpoints = d.endpoints := by
  rw [h.eq_with]
  rfl

theorem schemaCount_eq (h : d.Reordered d') : d'.schemaCount = d.schemaCount :=
  Schema.countMembers_perm h.perm

variable (hd : d.Tidy)

include hd in
/-- A reference leads to the same schema. -/
theorem resolve?_eq (h : d.Reordered d') (reference : String) :
    d'.resolve? reference = d.resolve? reference := by
  rw [resolve?, resolve?]
  cases Pointer.componentName? reference "schemas" with
  | none => rfl
  | some name =>
      simp only [Option.bind_eq_bind, Option.bind_some]
      rw [findValue?_perm h.perm hd.nodup_schemas name]

include hd in
theorem followFrom_eq (h : d.Reordered d') (budget : Nat) (followed : List String)
    (reference : String) (location : SchemaKey) :
    d'.followFrom budget followed reference location
      = d.followFrom budget followed reference location := by
  induction budget generalizing followed reference location with
  | zero => rfl
  | succ budget ih =>
      rw [followFrom, followFrom, h.resolve?_eq hd]
      simp only [ih]

include hd in
theorem dereference_eq (h : d.Reordered d') (n : SchemaNode) :
    d'.dereference n = d.dereference n := by
  rw [dereference, dereference]
  cases n.reference? with
  | none => rfl
  | some reference =>
      simp only
      rw [follow, follow, h.perm.length_eq, h.followFrom_eq hd]

include hd in
/-- **Walks are the same.** -/
theorem sameReferences (h : d.Reordered d') : d.SameReferences d' :=
  ⟨h.dereference_eq hd, h.schemaCount_eq⟩

end Description.Reordered

end ApiTypes
