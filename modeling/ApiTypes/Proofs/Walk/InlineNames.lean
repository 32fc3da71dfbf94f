import ApiTypes.Model.Naming
import ApiTypes.Proofs.Walk.Likeness
import ApiTypes.Proofs.Walk.Results

/-!
# The names of inline schemas

A schema that stands where it is used has no name of its own, so the walk makes one up, and others
for the schemas below it. Rules look at the names of components alone, and a reference takes the
name of the component that it leads to. **So a name that is made up has no say in what the schema
becomes** (`Resolver.resolveUse_of_names`): it is seen in the names of generated types and nowhere
else.
-/

set_option autoImplicit false

namespace ApiTypes

/-- Stores that differ in the names of generated types at most. -/
def Likeness.renamedTypes : Likeness where
  names _ _ := True
  marks := Eq
  annotations := Eq
  annotations_nil := rfl

namespace Resolver

variable {r : Resolver}

/-- Under names that need not be the same a resolver writes the same but for names. -/
theorem writes_renamedTypes : r.Writes .renamedTypes False r where
  description_eq := rfl
  mappings_eq := rfl
  packageName_eq := rfl
  typeName _ _ _ := trivial
  mark := rfl
  annotations _ _ := rfl

/-- A reference leads to a component, whose name counts alone. -/
theorem enter_of_reference {n : SchemaNode} (h : n.reference? ≠ none) (name name' : String) :
    r.enter ⟨n, name', false⟩ = r.enter ⟨n, name, false⟩ := by
  unfold enter Description.dereference
  cases hreference : n.reference? with
  | none => exact absurd hreference h
  | some reference =>
      cases hfollow : r.description.follow reference n.key with
      | error e => simp only [hfollow, Except.map]
      | ok target => simp only [hfollow, Except.map]

theorem resolveUse_of_reference {n : SchemaNode} (h : n.reference? ≠ none) (path : Option String)
    (use : Use) (name name' : String) :
    r.resolveUse path use n name' = r.resolveUse path use n name := by
  have hask : r.ask (.use path use n name') = r.ask (.use path use n name) := by
    rw [ask_use_eq, ask_use_eq, enter_of_reference h name name']
  exact hask

/-- **A name that is made up has no say in what a schema becomes.** A schema that is resolved for a
use under two names, from whatever state, is resolved with the same error, or to the same slot with
the same annotations of the use. It leaves as many slots behind, the same remembered, and the same
schemas being resolved. What was there before is there unchanged, every slot has the same
annotations, and the types differ in the names of generated types at most. If the schema is a
reference, nothing differs at all. -/
theorem resolveUse_of_names (r : Resolver) (path : Option String) (use : Use) (n : SchemaNode)
    (name name' : String) (s : WalkState) :
    ∃ out s₁ s₁', (r.resolveUse path use n name).outcome s = (out, s₁) ∧
      (r.resolveUse path use n name').outcome s = (out, s₁') ∧
      s₁'.types.size = s₁.types.size ∧
      (∀ key, s₁'.types.lookup key = s₁.types.lookup key) ∧
      s₁'.pending = s₁.pending ∧
      (∀ i : Nat, i < s.types.size →
        s₁.types.get? i = s.types.get? i ∧ s₁'.types.get? i = s.types.get? i) ∧
      (∀ i : Nat, s₁'.types.annotations i = s₁.types.annotations i) ∧
      (∀ i : Nat, Option.Rel (ModelType.Like (fun _ _ => True) Eq) (s₁.types.get? i)
        (s₁'.types.get? i)) ∧
      (n.reference? ≠ none → s₁' = s₁) := by
  have hself : WalkState.Like .renamedTypes s s :=
    ⟨.refl (fun _ => trivial) (fun _ => rfl) (fun _ => rfl) s.types, rfl⟩
  have hname : SameName False name name' := nofun
  obtain ⟨s₁', ho', hlike⟩ :=
    (writes_renamedTypes (r := r)).alongside_resolveUse path use n hname s s _ _ hself rfl
  rw [Except.map_id] at ho'
  have hgrows := (answered_ask (r := r) (.use path use n name) s).grows
  have hgrows' : Grows s.types ((r.resolveUse path use n name').outcome s).2.types :=
    (answered_ask (r := r) (.use path use n name') s).grows
  rw [ho'] at hgrows'
  refine ⟨_, _, s₁', rfl, ho', hlike.types.size_eq, hlike.types.lookup_eq, hlike.pending_eq,
    fun i hi => ⟨hgrows.get?_eq i hi, hgrows'.get?_eq i hi⟩,
    fun i => (hlike.types.annotations_rel i).symm, hlike.types.get?_rel, fun hreference => ?_⟩
  rw [resolveUse_of_reference hreference path use name name'] at ho'
  exact (congrArg Prod.snd ho').symm

end Resolver

/-- An inline schema gets the same slots under two names, and the first of them is called after the
name. -/
theorem resolveUse_of_names_petSchema :
    ∃ out s₁ s₁',
      ((Resolver.mk petDescription {}).resolveUse none .schema ⟨default, petSchema⟩ "cat").outcome {}
        = (out, s₁) ∧
      ((Resolver.mk petDescription {}).resolveUse none .schema ⟨default, petSchema⟩ "dog").outcome {}
        = (out, s₁') ∧
      s₁'.types.size = s₁.types.size ∧
      s₁.types.typeName (0 : Nat) = "Cat" ∧ s₁'.types.typeName (0 : Nat) = "Dog" := by
  obtain ⟨out, s₁, s₁', ho, ho', hsize, _⟩ := (Resolver.mk petDescription {}).resolveUse_of_names
    none .schema ⟨default, petSchema⟩ "cat" "dog" {}
  have hcat : (((Resolver.mk petDescription {}).resolveUse none .schema ⟨default, petSchema⟩
      "cat").outcome {}).2.types.typeName (0 : Nat) = "Cat" := by decide +kernel
  have hdog : (((Resolver.mk petDescription {}).resolveUse none .schema ⟨default, petSchema⟩
      "dog").outcome {}).2.types.typeName (0 : Nat) = "Dog" := by decide +kernel
  rw [ho] at hcat
  rw [ho'] at hdog
  exact ⟨out, s₁, s₁', ho, ho', hsize, hcat, hdog⟩

end ApiTypes
