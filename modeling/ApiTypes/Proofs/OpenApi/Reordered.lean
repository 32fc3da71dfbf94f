import ApiTypes.OpenApi.Load
import ApiTypes.Proofs.Resolve.Reordered

/-!
# Documents with components in another order

Two documents may differ in nothing but the order of the schemas of their components
(`Value.Reordered`). Reading them ends with the same fault, or with descriptions that differ in
nothing but this order (`Description.ofValue_reordered`).
-/

set_option autoImplicit false

namespace ApiTypes

/-! ## Readings that end alike -/

section Readings

variable {α β γ δ : Type}

theorem rel_bind {R : α → β → Prop} {S : γ → δ → Prop} {x : Option α} {y : Option β}
    {f : α → Option γ} {g : β → Option δ} (h : Option.Rel R x y)
    (hnext : ∀ a b, R a b → Option.Rel S (f a) (g b)) : Option.Rel S (x.bind f) (y.bind g) := by
  cases h with
  | some hab => exact hnext _ _ hab
  | none => exact .none

theorem rel_bind_same {S : γ → δ → Prop} (x : Option α) {f : α → Option γ} {g : α → Option δ}
    (hnext : ∀ a, Option.Rel S (f a) (g a)) : Option.Rel S (x.bind f) (x.bind g) := by
  cases x with
  | some a => exact hnext a
  | none => exact .none

theorem rel_trans {R : α → α → Prop} (htrans : ∀ a b c, R a b → R b c → R a c) {x y z : Option α}
    (h : Option.Rel R x y) (h' : Option.Rel R y z) : Option.Rel R x z := by
  cases h with
  | some hab =>
      cases h' with
      | some hbc => exact .some (htrans _ _ _ hab hbc)
  | none =>
      cases h' with
      | none => exact .none

theorem rel_map_some {R : α → β → Prop} {x : Option α} {y : Option β} (h : Option.Rel R x y) :
    Option.Rel (Option.Rel R) (x.map some) (y.map some) := by
  cases h with
  | some hab => exact .some (.some hab)
  | none => exact .none

/-- Reading values one by one does not depend on their order. -/
theorem mapM_perm {f : α → Option β} {as as' : List α} (h : as.Perm as') :
    Option.Rel List.Perm (as.mapM f) (as'.mapM f) := by
  induction h with
  | nil => exact .some (List.Perm.refl _)
  | cons a _ ih =>
      rw [List.mapM_cons, List.mapM_cons]
      exact rel_bind_same (f a) fun b => rel_bind ih fun _ _ hperm => .some (hperm.cons b)
  | swap a a' rest =>
      rw [List.mapM_cons, List.mapM_cons, List.mapM_cons, List.mapM_cons]
      cases f a with
      | none =>
          cases f a' with
          | none => exact .none
          | some b' => exact .none
      | some b =>
          cases f a' with
          | none => exact .none
          | some b' =>
              cases rest.mapM f with
              | none => exact .none
              | some bs => exact .some (List.Perm.swap b b' bs)
  | trans _ _ ih₁ ih₂ => exact rel_trans (fun _ _ _ h h' => h.trans h') ih₁ ih₂

/-- Results that are the same error, or values that are related. -/
inductive Alike {ε : Type} (R : α → β → Prop) : Except ε α → Except ε β → Prop
  | ok {a : α} {b : β} : R a b → Alike R (.ok a) (.ok b)
  | error (e : ε) : Alike R (.error e) (.error e)

end Readings

/-! ## Documents -/

namespace Value

/-- Objects with the same member under every name but one, and there with members that are
related. -/
inductive SameBut (name : String) (R : Value → Value → Prop) : Value → Value → Prop
  | object {members members' : List (String × Value)} {a a' : Value} :
      (∀ other, ¬ other = name → findValue? other members' = findValue? other members) →
      findValue? name members = some a → findValue? name members' = some a' → R a a' →
      SameBut name R (.object members) (.object members')

/-- Objects with the same members in another order. -/
inductive SameMembers : Value → Value → Prop
  | object {members members' : List (String × Value)} :
      members.Perm members' → SameMembers (.object members) (.object members')

/-- Documents that differ in nothing but the order of the schemas of their components. -/
def Reordered : Value → Value → Prop :=
  SameBut "components" (SameBut "schemas" SameMembers)

/-- What is read under names is the same in another order. -/
theorem SameMembers.mapOf? {α : Type} {read : Value → Option α} {v v' : Value}
    (h : SameMembers v v') : Option.Rel List.Perm (v.mapOf? read) (v'.mapOf? read) := by
  cases h with
  | object hperm => exact mapM_perm hperm

end Value

/-! ## Fields that are the same -/

section Fields

variable {α : Type} {name other : String} {names : List String}
  {members members' : List (String × Value)}

theorem Record.entry_eq (h : findValue? other members' = findValue? other members) :
    Record.entry ⟨names, .object members'⟩ other = Record.entry ⟨names, .object members⟩ other := by
  rw [Record.entry, Record.entry]
  simp only
  rw [h]

theorem Record.orElse?_eq (h : findValue? other members' = findValue? other members)
    (default : α) (read : Value → Option α) :
    Record.orElse? ⟨names, .object members'⟩ other default read
      = Record.orElse? ⟨names, .object members⟩ other default read := by
  rw [Record.orElse?, Record.orElse?, Record.entry_eq h]

theorem Record.required?_eq (h : findValue? other members' = findValue? other members)
    (read : Value → Option α) :
    Record.required? ⟨names, .object members'⟩ other read
      = Record.required? ⟨names, .object members⟩ other read := by
  rw [Record.required?, Record.required?, Record.entry_eq h]

theorem Record.entry_present {v : Value} (h : findValue? name members = some v) :
    Record.entry ⟨names, .object members⟩ name = .present v := by
  rw [Record.entry]
  simp only
  rw [h]

end Fields

/-! ## Version 3.0 -/

namespace Version30

/-- Components with the schemas in another order. -/
def Components.Reordered (c c' : Components) : Prop :=
  c' = { c with schemas := c'.schemas } ∧ c'.schemas.Perm c.schemas

theorem components?_reordered {v v' : Value} (h : Value.SameBut "schemas" Value.SameMembers v v') :
    Option.Rel Components.Reordered (components? v) (components? v') := by
  cases h with
  | @object members members' a a' hothers hfind hfind' hsame =>
      have hfield : ∀ other, ¬ other = "schemas" →
          objectField? ⟨[], .object members'⟩ other = objectField? ⟨[], .object members⟩ other :=
        fun other hne => Record.orElse?_eq (hothers other hne) _ _
      have hschemas : Option.Rel List.Perm
          (Record.orElse? ⟨[], .object members⟩ "schemas" [] (Value.mapOf? schema?))
          (Record.orElse? ⟨[], .object members'⟩ "schemas" [] (Value.mapOf? schema?)) := by
        rw [Record.orElse?, Record.orElse?, Record.entry_present hfind,
          Record.entry_present hfind']
        exact hsame.mapOf?
      unfold components?
      simp only [object?, Option.bind_eq_bind, Option.bind_some, List.forIn_cons, List.forIn_nil]
      rw [hfield "securitySchemes" (by decide), hfield "examples" (by decide),
        hfield "headers" (by decide), hfield "links" (by decide), hfield "callbacks" (by decide),
        Record.orElse?_eq (hothers "parameters" (by decide)),
        Record.orElse?_eq (hothers "requestBodies" (by decide)),
        Record.orElse?_eq (hothers "responses" (by decide))]
      refine rel_bind_same _ fun _ => rel_bind hschemas fun schemas schemas' hperm => ?_
      refine rel_bind_same _ fun parameters => rel_bind_same _ fun requestBodies => ?_
      exact rel_bind_same _ fun responses => .some ⟨rfl, hperm.symm⟩

theorem description?_reordered {v v' : Value} (h : v.Reordered v') :
    Option.Rel Description.Reordered (description? v) (description? v') := by
  cases h with
  | @object members members' a a' hothers hfind hfind' hsame =>
      have hcomponents : Option.Rel (Option.Rel Components.Reordered)
          (Record.optional? ⟨[], .object members⟩ "components" components?)
          (Record.optional? ⟨[], .object members'⟩ "components" components?) := by
        rw [Record.optional?, Record.optional?, Record.entry_present hfind,
          Record.entry_present hfind']
        have hread := components?_reordered hsame
        cases hsame with
        | object => exact rel_map_some hread
      unfold description?
      simp only [object?, Option.bind_eq_bind, Option.bind_some]
      rw [Record.required?_eq (hothers "openapi" (by decide)),
        Record.required?_eq (hothers "info" (by decide)),
        Record.orElse?_eq (hothers "servers" (by decide)),
        Record.required?_eq (hothers "paths" (by decide))]
      refine rel_bind_same _ fun version => rel_bind_same _ fun _ => rel_bind_same _ fun _ => ?_
      refine rel_bind_same _ fun paths => rel_bind hcomponents fun found found' hfound => ?_
      cases hfound with
      | none => exact .some (Description.Reordered.refl _)
      | some hc =>
          obtain ⟨heq, hperm⟩ := hc
          rw [heq]
          exact .some ⟨rfl, hperm⟩

end Version30

/-! ## Versions 3.1 and 3.2 -/

namespace Version31

theorem components?_reordered {v v' : Value} (h : Value.SameBut "schemas" Value.SameMembers v v') :
    Option.Rel (fun c c' => c.1.Perm c'.1 ∧ c'.2 = c.2) (components? v) (components? v') := by
  cases h with
  | @object members members' a a' hothers hfind hfind' hsame =>
      unfold components?
      simp only [Value.members?, Option.bind_eq_bind, Option.bind_some, hfind, hfind',
        hothers "responses" (by decide), hothers "securitySchemes" (by decide)]
      refine rel_bind hsame.mapOf? fun schemas schemas' hperm => ?_
      refine rel_bind_same _ fun _ => rel_bind_same _ fun _ => ?_
      exact rel_bind_same _ fun bodies => .some ⟨hperm, rfl⟩

theorem description_reordered {v v' : Value} (h : v.Reordered v') :
    Alike Description.Reordered (description v) (description v') := by
  cases h with
  | @object members members' a a' hothers hfind hfind' hsame =>
      have hread := components?_reordered hsame
      unfold description
      simp only [Value.get?, hfind, hfind', Option.getD_some]
      cases hsame with
      | @object shared shared' b b' hshared hfind₁ hfind₁' hschemas =>
          simp only [Value.record?]
          rw [Record.orElse?_eq (hshared "parameters" (by decide)),
            Record.orElse?_eq (hshared "requestBodies" (by decide)),
            Record.required?_eq (hothers "openapi" (by decide)),
            Record.orElse?_eq (hothers "paths" (by decide))]
          generalize components? (.object shared) = found at hread
          generalize components? (.object shared') = found' at hread
          cases hread with
          | none => exact .error _
          | @some c c' hc =>
              obtain ⟨schemas, responses⟩ := c
              obtain ⟨schemas', responses'⟩ := c'
              obtain ⟨hperm, rfl⟩ := hc
              simp only
              split
              · split
                · split
                  · split
                    · exact .ok ⟨rfl, hperm.symm⟩
                    · exact .error _
                  · exact .error _
                · exact .error _
              · exact .error _

end Version31

namespace Description

/-- **Documents that are reordered are read alike.** -/
theorem ofValue_reordered {v v' : Value} (h : v.Reordered v') (dialect : Dialect) :
    Alike Reordered (ofValue dialect v) (ofValue dialect v') := by
  cases dialect with
  | late => exact Version31.description_reordered h
  | early =>
      have hread := Version30.description?_reordered h
      rw [ofValue, ofValue]
      generalize Version30.description? v = found at hread
      generalize Version30.description? v' = found' at hread
      cases hread with
      | some hd => exact .ok hd
      | none => exact .error _

theorem load_reordered {text text' : String} {v v' : Value} (hread : Yaml.read? text = some v)
    (hread' : Yaml.read? text' = some v') (h : v.Reordered v') :
    Alike Reordered (load text) (load text') := by
  have hversion : v'.get? "openapi" = v.get? "openapi" := by
    cases h with
    | object hothers => exact hothers "openapi" (by decide)
  rw [load, load, hread, hread']
  simp only
  rw [hversion]
  split
  · exact .error _
  · split
    · exact ofValue_reordered h _
    · exact .error _

end Description

end ApiTypes
