import ApiTypes.Model.Naming
import ApiTypes.Proofs.Store.View
import Mathlib.Data.Set.Card
import Mathlib.Logic.Relation
import Mathlib.Order.WellFounded

/-!
# Walks over the slots of a store, and their bounds

What is told of a slot is told from the slots below it, up to a depth that the number of slots
gives. There are three kinds of walks. One that remembers where it was comes to an end in every
store (`TypeStore.visitBy_eq`). One that follows items and type arguments comes to an end if these
stand before the types that are written with them (`TypeStore.PartsBefore.toWritten`). The one that
follows constituents does not remember where it was. It ends where no composed type below is below
itself (`TypeStore.ends_iff`); there the depth makes no difference, and what it tells satisfies the
recursion without depth (`TypeStore.Ends.required_eq`).
-/

set_option autoImplicit false

universe u

namespace ApiTypes

namespace TypeStore

/-- A slot holds a composed type with a slot among its constituents. -/
def HasConstituent (s : TypeStore) (i j : Nat) : Prop :=
  ∃ t, s.get? i = some t ∧ j ∈ t.constituents

/-- A slot holds a type that is written with the type in another slot. -/
def HasPart (s : TypeStore) (i j : Nat) : Prop :=
  ∃ t, s.get? i = some t ∧ j ∈ t.parts

variable {s : TypeStore}

theorem HasConstituent.lt_size {i j : Nat} (h : s.HasConstituent i j) : i < s.size :=
  h.elim fun _ ht => s.lt_size_of_get? ht.1

theorem HasPart.lt_size {i j : Nat} (h : s.HasPart i j) : i < s.size :=
  h.elim fun _ ht => s.lt_size_of_get? ht.1

/-! ## Walks that remember where they were -/

section Visit

variable {α : Type u} (below : Nat → List Nat) (tell : Nat → α → α)

/-- Adds what a slot tells to what was found and goes on with the slots below it, unless the slot
was visited. -/
def visitBy : Nat → Nat → List Nat × α → List Nat × α
  | 0, _, found => found
  | depth + 1, id, (visited, out) =>
      if id ∈ visited then (visited, out)
      else (below id).foldl (fun found j => visitBy depth j found) (id :: visited, tell id out)

/-- The number of slots that were not visited. -/
def unvisited (size : Nat) (visited : List Nat) : Nat :=
  ((Finset.range size).filter fun i => ¬ i ∈ visited).card

theorem unvisited_le (size : Nat) (visited : List Nat) : unvisited size visited ≤ size := by
  have h := Finset.card_filter_le (Finset.range size) fun i => ¬ i ∈ visited
  rw [Finset.card_range] at h
  exact h

theorem unvisited_mono (size : Nat) {visited visited' : List Nat} (h : visited ⊆ visited') :
    unvisited size visited' ≤ unvisited size visited :=
  Finset.card_le_card (Finset.monotone_filter_right _ fun _ _ hi hmem => hi (h hmem))

theorem unvisited_cons_lt {size i : Nat} (hi : i < size) {visited : List Nat}
    (hnew : ¬ i ∈ visited) : unvisited size (i :: visited) < unvisited size visited := by
  refine Finset.card_lt_card (Finset.ssubset_iff_of_subset ?_ |>.mpr ⟨i, ?_, ?_⟩)
  · exact Finset.monotone_filter_right _ fun _ _ hk hmem => hk (List.mem_cons_of_mem _ hmem)
  · exact Finset.mem_filter.mpr ⟨Finset.mem_range.mpr hi, hnew⟩
  · exact fun hmem => (Finset.mem_filter.mp hmem).2 List.mem_cons_self

/-- Nothing that was visited is forgotten. -/
theorem subset_visitBy (depth : Nat) : ∀ (id : Nat) (found : List Nat × α),
    found.1 ⊆ (visitBy below tell depth id found).1 := by
  induction depth with
  | zero => exact fun _ _ _ h => h
  | succ depth ih =>
      rintro id ⟨visited, out⟩
      rw [visitBy]
      split
      · exact fun _ h => h
      · have hfold : ∀ (js : List Nat) (found : List Nat × α),
            found.1 ⊆ (js.foldl (fun found j => visitBy below tell depth j found) found).1 := by
          intro js
          induction js with
          | nil => exact fun _ _ h => h
          | cons j rest ihrest => exact fun found _ h => ihrest _ (ih j found h)
        exact fun _ h => hfold _ _ (List.mem_cons_of_mem id h)

/-- **A walk that remembers where it was does not depend on the depth.** -/
theorem visitBy_eq {size : Nat} (hbelow : ∀ id j, j ∈ below id → id < size) (depth : Nat) :
    ∀ (depth' id : Nat) (found : List Nat × α), unvisited size found.1 < depth →
      unvisited size found.1 < depth' →
      visitBy below tell depth id found = visitBy below tell depth' id found := by
  induction depth with
  | zero => exact fun _ _ _ h => absurd h (Nat.not_lt_zero _)
  | succ depth ih =>
      rintro (_ | depth') id ⟨visited, out⟩ h h'
      · exact absurd h' (Nat.not_lt_zero _)
      rw [visitBy, visitBy]
      split
      · rfl
      · rename_i hnew
        -- Along the slots below, ever fewer slots are left to visit.
        have hfold : ∀ (js : List Nat) (found : List Nat × α), unvisited size found.1 < depth →
            unvisited size found.1 < depth' →
            js.foldl (fun found j => visitBy below tell depth j found) found
              = js.foldl (fun found j => visitBy below tell depth' j found) found := by
          intro js
          induction js with
          | nil => exact fun _ _ _ => rfl
          | cons j rest ihrest =>
              intro found hlt hlt'
              have hfewer := unvisited_mono size (subset_visitBy below tell depth j found)
              rw [List.foldl_cons, List.foldl_cons, ← ih depth' j found hlt hlt']
              exact ihrest _ (by omega) (by omega)
        cases hjs : below id with
        | nil => rfl
        | cons j rest =>
            have hfewer : unvisited size (id :: visited) < unvisited size visited :=
              unvisited_cons_lt (hbelow id j (hjs ▸ List.mem_cons_self)) hnew
            exact hfold _ _ (Nat.lt_of_lt_of_le hfewer (Nat.le_of_lt_succ h))
              (Nat.lt_of_lt_of_le hfewer (Nat.le_of_lt_succ h'))

/-- From the number of slots on the depth makes no difference. -/
theorem visitBy_eq_of_lt {size : Nat} (hbelow : ∀ id j, j ∈ below id → id < size) {depth : Nat}
    (h : size < depth) (id : Nat) (found : List Nat × α) :
    visitBy below tell depth id found = visitBy below tell (size + 1) id found := by
  have hle := unvisited_le size found.1
  exact visitBy_eq below tell hbelow depth (size + 1) id found (by omega) (by omega)

end Visit

/-- What the type in a slot lists. -/
def listed (s : TypeStore) (f : ModelType → List TypeId) (id : Nat) : List Nat :=
  ((s.get? id).map f).getD []

theorem mem_listed {f : ModelType → List TypeId} {id j : Nat} :
    j ∈ s.listed f id ↔ ∃ t, s.get? id = some t ∧ j ∈ f t := by
  unfold listed
  cases s.get? id with
  | none => simp
  | some t => simp

theorem lt_size_of_mem_listed {f : ModelType → List TypeId} {id j : Nat} (h : j ∈ s.listed f id) :
    id < s.size := by
  obtain ⟨t, hget, -⟩ := mem_listed.mp h
  exact s.lt_size_of_get? hget

/-- The walk for imports remembers where it was. -/
theorem visitImports_eq_visitBy (s : TypeStore) (depth : Nat) :
    ∀ (id : Nat) (found : List Nat × List String), s.visitImports depth id found
      = visitBy (s.listed ModelType.parts)
          (fun id out => out ++ ((s.get? id).map ModelType.ownImports).getD []) depth id found := by
  induction depth with
  | zero => exact fun _ _ => rfl
  | succ depth ih =>
      rintro id ⟨visited, out⟩
      rw [visitImports, visitBy, listed]
      split
      · rfl
      · cases s.get? id with
        | none => simp
        | some t => simp [ih]

/-- The walk for properties remembers where it was. -/
theorem visitProperties_eq_visitBy (s : TypeStore) (depth : Nat) :
    ∀ (id : Nat) (found : List Nat × OrderedMap TypeId), s.visitProperties depth id found
      = visitBy (s.listed ModelType.constituents) (fun id out => match s.get? id with
          | some (.object _ _ properties _ _ _) => out.append properties
          | _ => out) depth id found := by
  induction depth with
  | zero => exact fun _ _ => rfl
  | succ depth ih =>
      rintro id ⟨visited, out⟩
      rw [visitProperties, visitBy, listed]
      split
      · rfl
      · cases s.get? id with
        | none => rfl
        | some t =>
            cases t with
            | allOf name package items deprecated => simp [ih, ModelType.constituents]
            | _ => rfl

/-- **Imports do not depend on the depth.** -/
theorem visitImports_of_lt {depth : Nat} (h : s.size < depth) (id : Nat)
    (found : List Nat × List String) :
    s.visitImports depth id found = s.visitImports (s.size + 1) id found := by
  rw [visitImports_eq_visitBy, visitImports_eq_visitBy]
  exact visitBy_eq_of_lt _ _ (fun _ _ => lt_size_of_mem_listed) h id found

/-- **Properties do not depend on the depth.** -/
theorem visitProperties_of_lt {depth : Nat} (h : s.size < depth) (id : Nat)
    (found : List Nat × OrderedMap TypeId) :
    s.visitProperties depth id found = s.visitProperties (s.size + 1) id found := by
  rw [visitProperties_eq_visitBy, visitProperties_eq_visitBy]
  exact visitBy_eq_of_lt _ _ (fun _ _ => lt_size_of_mem_listed) h id found

/-! ## Walks over items and type arguments -/

/-- What types are written with stands before them. -/
def PartsBefore (s : TypeStore) : Prop := ∀ i j, s.HasPart i j → j < i

/-- A step of a recursion over slots that asks for nothing but the parts of a slot. -/
def AlongParts {α : Type u} (s : TypeStore) (step : (Nat → α) → Nat → α) : Prop :=
  ∀ (told told' : Nat → α) (id : Nat), (∀ j, s.HasPart id j → told j = told' j) →
    step told id = step told' id

namespace PartsBefore

theorem min_lt (h : s.PartsBefore) {i j : Nat} (hj : s.HasPart i j) :
    min j s.size < min i s.size := by
  have := h i j hj
  have := hj.lt_size
  omega

/-- What is told along parts does not depend on the depth. -/
theorem within_eq {α : Type u} (h : s.PartsBefore) {step : (Nat → α) → Nat → α}
    (hstep : s.AlongParts step) {within : Nat → Nat → α}
    (hsucc : ∀ depth id, within (depth + 1) id = step (within depth) id) (depth : Nat) :
    ∀ depth' id : Nat, min id s.size < depth → min id s.size < depth' →
      within depth id = within depth' id := by
  induction depth with
  | zero => exact fun _ _ hlt => absurd hlt (Nat.not_lt_zero _)
  | succ depth ih =>
      rintro (_ | depth') id hlt hlt'
      · exact absurd hlt' (Nat.not_lt_zero _)
      rw [hsucc, hsucc]
      apply hstep
      intro j hj
      have := h.min_lt hj
      exact ih depth' j (by omega) (by omega)

/-- **The recursion along parts has one solution,** which is what is told up to a depth. -/
theorem eq_step_iff {α : Type u} (h : s.PartsBefore) {step : (Nat → α) → Nat → α}
    (hstep : s.AlongParts step) {within : Nat → Nat → α}
    (hsucc : ∀ depth id, within (depth + 1) id = step (within depth) id) (told : Nat → α) :
    (∀ id, told id = step told id) ↔ told = within (s.size + 1) := by
  have hsolves : ∀ id, within (s.size + 1) id = step (within (s.size + 1)) id := by
    intro id
    rw [← hsucc]
    exact h.within_eq hstep hsucc _ _ id (by omega) (by omega)
  constructor
  · intro htold
    funext id
    -- Parts have smaller numbers, so the two agree by induction on the number.
    induction id using Nat.strong_induction_on with
    | _ id ih =>
        rw [htold id, hsolves id]
        apply hstep
        intro j hj
        exact ih j (h id j hj)
  · rintro rfl
    exact hsolves

end PartsBefore

/-- A type in source text, told from the texts of its parts. -/
def textFrom (s : TypeStore) (told : Nat → NameForm → String) (id : Nat) (form : NameForm) :
    String :=
  match s.get? id with
  | none => ""
  | some (.primitive kind _ _) => kind.name
  | some (.array item _ _) => told item form ++ "[]"
  | some (.map item _ _) => "Map<String, " ++ told item form ++ ">"
  | some (.object name _ _ _ _ _) => name.inForm form
  | some (.allOf name _ _ _) => name.inForm form
  | some (.enum name _ _ _ _) => name.inForm form
  | some (.oneOf name _ _ isInterface _) =>
      if isInterface then name.inForm form else Primitive.object.name
  | some (.mapped name _ generics isArray _ _) =>
      name
        ++ (if generics.isEmpty then ""
          else "<" ++ ", ".intercalate (generics.map (told · .generated)) ++ ">")
        ++ (if isArray then "[]" else "")

/-- The package of a type, told from the packages of its parts. -/
def packageFrom (s : TypeStore) (told : Nat → String) (id : Nat) : String :=
  match s.get? id with
  | none => ""
  | some (.primitive kind _ _) => kind.package
  | some (.array item _ _) => told item
  | some (.map _ _ _) => "java.util"
  | some (.object _ package _ _ _ _) => package
  | some (.allOf _ package _ _) => package
  | some (.enum _ package _ _ _) => package
  | some (.oneOf _ package _ isInterface _) =>
      if isInterface then package else Primitive.object.package
  | some (.mapped _ package _ _ _ _) => package

/-- The qualified names that what a type refers to needs, told from those for its items. -/
def referencedFrom (s : TypeStore) (told : Nat → List String) (id : Nat) : List String :=
  s.annotationImports id ++
    match s.get? id with
    | none => []
    | some (.primitive ..) => []
    | some (.enum ..) => []
    | some (.array item _ _) => told item
    | some (.map item _ _) => told item ++ ["java.util.Map"]
    | some (.object ..) =>
        (s.properties id).values.flatMap fun property =>
          s.importList property ++ s.annotationImports property
    | some (.allOf ..) =>
        (s.properties id).values.flatMap fun property =>
          s.importList property ++ s.annotationImports property
    | some (.oneOf _ _ items isInterface _) =>
        if isInterface then items.flatMap s.importList else []
    | some (.mapped _ _ generics _ _ _) => generics.flatMap s.importList

/-- The texts of a type in both forms, up to a depth. -/
def textsWithin (s : TypeStore) (depth id : Nat) (form : NameForm) : String :=
  s.textWithin depth form id

theorem textsWithin_succ (depth id : Nat) :
    s.textsWithin (depth + 1) id = s.textFrom (s.textsWithin depth) id := rfl

theorem packageWithin_succ (depth id : Nat) :
    s.packageWithin (depth + 1) id = s.packageFrom (s.packageWithin depth) id := rfl

theorem referencedWithin_succ (depth id : Nat) :
    s.referencedWithin (depth + 1) id = s.referencedFrom (s.referencedWithin depth) id := rfl

theorem alongParts_textFrom : s.AlongParts s.textFrom := by
  intro told told' id h
  funext form
  unfold textFrom
  cases ht : s.get? id with
  | none => rfl
  | some t =>
      cases t with
      | array item c d => simp only [h item ⟨_, ht, List.mem_cons_self⟩]
      | map item c d => simp only [h item ⟨_, ht, List.mem_cons_self⟩]
      | mapped name package generics isArray c d =>
          -- Type arguments are written with generated names, whatever the form.
          have hgenerics : generics.map (told · .generated) = generics.map (told' · .generated) :=
            List.map_congr_left fun j hj => congrFun (h j ⟨_, ht, hj⟩) _
          simp only [hgenerics]
      | _ => rfl

theorem alongParts_packageFrom : s.AlongParts s.packageFrom := by
  intro told told' id h
  unfold packageFrom
  cases ht : s.get? id with
  | none => rfl
  | some t =>
      cases t with
      | array item c d => exact h item ⟨_, ht, List.mem_cons_self⟩
      | _ => rfl

theorem alongParts_referencedFrom : s.AlongParts s.referencedFrom := by
  intro told told' id h
  unfold referencedFrom
  cases ht : s.get? id with
  | none => rfl
  | some t =>
      cases t with
      | array item c d => simp only [h item ⟨_, ht, List.mem_cons_self⟩]
      | map item c d => simp only [h item ⟨_, ht, List.mem_cons_self⟩]
      | _ => rfl

namespace PartsBefore

/-- Texts do not depend on the depth. -/
theorem textWithin_eq (h : s.PartsBefore) (depth depth' : Nat) (form : NameForm) (id : Nat)
    (hlt : min id s.size < depth) (hlt' : min id s.size < depth') :
    s.textWithin depth form id = s.textWithin depth' form id :=
  congrFun (h.within_eq alongParts_textFrom textsWithin_succ depth depth' id hlt hlt') form

/-- Packages do not depend on the depth. -/
theorem packageWithin_eq (h : s.PartsBefore) (depth depth' id : Nat)
    (hlt : min id s.size < depth) (hlt' : min id s.size < depth') :
    s.packageWithin depth id = s.packageWithin depth' id :=
  h.within_eq alongParts_packageFrom packageWithin_succ depth depth' id hlt hlt'

/-- What a type refers to does not depend on the depth. -/
theorem referencedWithin_eq (h : s.PartsBefore) (depth depth' id : Nat)
    (hlt : min id s.size < depth) (hlt' : min id s.size < depth') :
    s.referencedWithin depth id = s.referencedWithin depth' id :=
  h.within_eq alongParts_referencedFrom referencedWithin_succ depth depth' id hlt hlt'

end PartsBefore

/-- Depths beyond the number of slots make no difference. -/
structure Bounded (s : TypeStore) : Prop where
  /-- They make none for texts. -/
  text : ∀ (depth : Nat) (form : NameForm) (id : Nat), s.size < depth →
    s.textWithin depth form id = s.textWithin (s.size + 1) form id
  /-- They make none for packages. -/
  package : ∀ depth id : Nat, s.size < depth →
    s.packageWithin depth id = s.packageWithin (s.size + 1) id
  /-- They make none for what types refer to. -/
  referenced : ∀ depth id : Nat, s.size < depth →
    s.referencedWithin depth id = s.referencedWithin (s.size + 1) id
  /-- They make none for imports. -/
  imports : ∀ (depth id : Nat) (found : List Nat × List String), s.size < depth →
    s.visitImports depth id found = s.visitImports (s.size + 1) id found
  /-- They make none for properties. -/
  properties : ∀ (depth id : Nat) (found : List Nat × OrderedMap TypeId), s.size < depth →
    s.visitProperties depth id found = s.visitProperties (s.size + 1) id found

/-- **Where parts stand before what they are parts of, depths make no difference.** -/
theorem PartsBefore.bounded (h : s.PartsBefore) : s.Bounded where
  text depth form id hlt := h.textWithin_eq depth _ form id (by omega) (by omega)
  package depth id hlt := h.packageWithin_eq depth _ id (by omega) (by omega)
  referenced depth id hlt := h.referencedWithin_eq depth _ id (by omega) (by omega)
  imports _ id found hlt := visitImports_of_lt hlt id found
  properties _ id found hlt := visitProperties_of_lt hlt id found

/-- A type in source text in a form. -/
def text (s : TypeStore) (id : Nat) : NameForm → String
  | .schema => s.name id
  | .generated => s.typeName id

theorem text_eq : s.text = s.textsWithin (s.size + 1) := by
  funext id form
  cases form with
  | schema => rfl
  | generated => rfl

/-- The qualified names that what a type refers to needs, in whatever order. -/
def referencedNames (s : TypeStore) (id : Nat) : List String :=
  s.referencedWithin (s.size + 1) id

/-- What is written of a store is told along parts, in as many steps as the number of a slot
allows: a recursion without any depth, which has this one solution. -/
structure Written (s : TypeStore) : Prop where
  /-- The names of types in both forms are the solution for texts. -/
  text_iff : ∀ told : Nat → NameForm → String,
    (∀ id, told id = s.textFrom told id) ↔ told = s.text
  /-- The packages of types are the solution for packages. -/
  package_iff : ∀ told : Nat → String,
    (∀ id, told id = s.packageFrom told id) ↔ told = s.package
  /-- The names that imports are made of are the solution for what types refer to. -/
  referenced_iff : ∀ told : Nat → List String,
    (∀ id, told id = s.referencedFrom told id) ↔ told = s.referencedNames
  /-- Imports are these names, sorted. -/
  imports_eq : ∀ id, s.referencedImports id = sortedSet (s.referencedNames id)
  /-- For a text a depth is enough that is more than the number of the slot. -/
  text_depth : ∀ depth id : Nat, id < depth →
    ∀ form, s.textWithin depth form id = s.text id form
  /-- So it is for a package. -/
  package_depth : ∀ depth id : Nat, id < depth → s.packageWithin depth id = s.package id
  /-- So it is for what a type refers to. -/
  referenced_depth : ∀ depth id : Nat, id < depth →
    s.referencedWithin depth id = s.referencedNames id

/-- **Where parts stand before what they are parts of, what is written is told along parts.** -/
theorem PartsBefore.toWritten (h : s.PartsBefore) : s.Written where
  text_iff told := by
    rw [text_eq]
    exact h.eq_step_iff alongParts_textFrom textsWithin_succ told
  package_iff := h.eq_step_iff alongParts_packageFrom packageWithin_succ
  referenced_iff := h.eq_step_iff alongParts_referencedFrom referencedWithin_succ
  imports_eq _ := rfl
  text_depth depth id hlt form := by
    rw [text_eq]
    exact h.textWithin_eq depth _ form id (by omega) (by omega)
  package_depth depth id hlt := h.packageWithin_eq depth _ id (by omega) (by omega)
  referenced_depth depth id hlt := h.referencedWithin_eq depth _ id (by omega) (by omega)

/-- Along a relation that leads to smaller numbers, all that is reached is smaller. -/
theorem lt_of_transGen {R : Nat → Nat → Prop} (h : ∀ i j, R i j → j < i) {i j : Nat}
    (hij : Relation.TransGen R i j) : j < i := by
  induction hij with
  | single hstep => exact h _ _ hstep
  | tail _ hstep ih => exact Nat.lt_trans (h _ _ hstep) ih

/-- Where parts stand before what they are parts of, going from slots to their parts ends. -/
theorem PartsBefore.wellFounded (h : s.PartsBefore) : WellFounded fun j i => s.HasPart i j :=
  Subrelation.wf (fun hpart => h _ _ hpart) Nat.lt_wfRel.wf

/-! ## The walk over constituents -/

/-- The walk over constituents comes to an end. -/
def Ends (s : TypeStore) (i : Nat) : Prop := Acc (fun k j => s.HasConstituent j k) i

/-- Where the walk ends, nothing below is below itself. -/
theorem Ends.not_cycle {i : Nat} (h : s.Ends i) :
    ∀ k, Relation.ReflTransGen s.HasConstituent i k → ¬ Relation.TransGen s.HasConstituent k k := by
  induction h with
  | intro i _ ih =>
      intro k hik hkk
      rcases Relation.ReflTransGen.cases_head hik with rfl | ⟨j, hij, hjk⟩
      · obtain ⟨j, hij, hji⟩ := Relation.TransGen.head'_iff.mp hkk
        exact ih j hij i hji hkk
      · exact ih j hij k hjk hkk

/-- The slots that a slot leads to through constituents, itself included. -/
def reached (s : TypeStore) (i : Nat) : Set Nat :=
  { k | k < s.size ∧ Relation.ReflTransGen s.HasConstituent i k }

theorem reached_subset (s : TypeStore) (i : Nat) :
    s.reached i ⊆ (Finset.range s.size : Set Nat) :=
  fun _ hk => Finset.mem_coe.mpr (Finset.mem_range.mpr hk.1)

theorem finite_reached (s : TypeStore) (i : Nat) : (s.reached i).Finite :=
  (Finset.finite_toSet _).subset (s.reached_subset i)

/-- The number of these slots. -/
noncomputable def reach (s : TypeStore) (i : Nat) : Nat := (s.reached i).ncard

theorem reach_le (s : TypeStore) (i : Nat) : s.reach i ≤ s.size := by
  have h := Set.ncard_le_ncard (s.reached_subset i) (Finset.finite_toSet _)
  rw [Set.ncard_coe_finset, Finset.card_range] at h
  exact h

/-- A constituent of a slot that is not below itself leads to fewer slots. -/
theorem reach_lt {i j : Nat} (hij : s.HasConstituent i j)
    (hi : ¬ Relation.TransGen s.HasConstituent i i) : s.reach j < s.reach i := by
  -- The slot itself is no longer among them.
  refine Set.ncard_lt_ncard ⟨fun k hk => ⟨hk.1, hk.2.head hij⟩, fun hsub => ?_⟩
    (s.finite_reached i)
  have hback : i ∈ s.reached j := hsub ⟨hij.lt_size, .refl⟩
  exact hi (Relation.TransGen.head' hij hback.2)

/-- **The walk over constituents ends exactly where nothing below is below itself.** -/
theorem ends_iff {i : Nat} : s.Ends i ↔
    ∀ k, Relation.ReflTransGen s.HasConstituent i k →
      ¬ Relation.TransGen s.HasConstituent k k := by
  refine ⟨Ends.not_cycle, fun h => ?_⟩
  -- By induction on the number of slots that the slot leads to.
  induction hn : s.reach i using Nat.strong_induction_on generalizing i with
  | _ n ih =>
      refine Acc.intro _ fun j hij => ?_
      have hlt := reach_lt hij (h i .refl)
      exact ih _ (hn ▸ hlt) (fun k hjk => h k (.head hij hjk)) rfl

theorem Ends.reach_lt {i j : Nat} (h : s.Ends i) (hij : s.HasConstituent i j) :
    s.reach j < s.reach i :=
  TypeStore.reach_lt hij (h.not_cycle i .refl)

/-- A step of a recursion over slots that asks for nothing but the constituents of a slot. -/
def AlongConstituents {α : Type u} (s : TypeStore) (step : (Nat → α) → Nat → α) : Prop :=
  ∀ (told told' : Nat → α) (id : Nat), (∀ j, s.HasConstituent id j → told j = told' j) →
    step told id = step told' id

section AlongConstituents

variable {α : Type u} {step : (Nat → α) → Nat → α} {within : Nat → Nat → α}

/-- Where the walk ends, a depth that is more than the number of slots below is enough. -/
theorem Ends.within_eq (hstep : s.AlongConstituents step)
    (hsucc : ∀ depth id, within (depth + 1) id = step (within depth) id) {i : Nat} (h : s.Ends i) :
    ∀ depth depth', s.reach i < depth → s.reach i < depth' → within depth i = within depth' i := by
  induction h with
  | intro i hacc ih =>
      rintro (_ | depth) (_ | depth') hlt hlt'
      · rfl
      · exact absurd hlt (Nat.not_lt_zero _)
      · exact absurd hlt' (Nat.not_lt_zero _)
      rw [hsucc, hsucc]
      refine hstep _ _ _ fun j hij => ?_
      have := Ends.reach_lt (Acc.intro i hacc) hij
      exact ih j hij depth depth' (by omega) (by omega)

/-- **Where the walk ends, the depth makes no difference.** -/
theorem Ends.within_of_lt (hstep : s.AlongConstituents step)
    (hsucc : ∀ depth id, within (depth + 1) id = step (within depth) id) {i depth : Nat}
    (h : s.Ends i) (hlt : s.size < depth) : within depth i = within (s.size + 1) i := by
  have hle := s.reach_le i
  exact h.within_eq hstep hsucc depth (s.size + 1) (by omega) (by omega)

/-- **Where the walk ends, what is told of a slot is told from its constituents.** -/
theorem Ends.within_eq_step (hstep : s.AlongConstituents step)
    (hsucc : ∀ depth id, within (depth + 1) id = step (within depth) id) {i : Nat}
    (h : s.Ends i) : within (s.size + 1) i = step (within (s.size + 1)) i := by
  have hlt : s.size < s.size + 1 + 1 := by omega
  rw [← hsucc, h.within_of_lt hstep hsucc hlt]

end AlongConstituents

/-- The required properties of a type, told from those of its constituents. -/
def requiredFrom (s : TypeStore) (told : Nat → List String) (id : Nat) : List String :=
  match s.get? id with
  | some (.object _ _ _ required _ _) => required
  | some (.allOf _ _ items _) => (items.flatMap told).foldl addText []
  | _ => []

theorem requiredWithin_succ (depth id : Nat) :
    s.requiredWithin (depth + 1) id = s.requiredFrom (s.requiredWithin depth) id := rfl

/-- The required properties depend on those of the constituents alone. -/
theorem alongConstituents_requiredFrom : s.AlongConstituents s.requiredFrom := by
  intro told told' id h
  unfold requiredFrom
  cases hget : s.get? id with
  | none => rfl
  | some t =>
      cases t with
      | allOf name package items d =>
          have hitems : items.flatMap told = items.flatMap told' :=
            List.flatMap_congr fun j hj => h j ⟨_, hget, hj⟩
          simp only [hitems]
      | _ => rfl

/-- **Where the walk ends, required properties do not depend on the depth.** -/
theorem Ends.requiredWithin_of_lt {i depth : Nat} (h : s.Ends i) (hlt : s.size < depth) :
    s.requiredWithin depth i = s.required i :=
  h.within_of_lt alongConstituents_requiredFrom requiredWithin_succ hlt

/-- **Where the walk ends, the required properties are told from those of the constituents.** -/
theorem Ends.required_eq {i : Nat} (h : s.Ends i) : s.required i = s.requiredFrom s.required i :=
  h.within_eq_step alongConstituents_requiredFrom requiredWithin_succ

end TypeStore

end ApiTypes
