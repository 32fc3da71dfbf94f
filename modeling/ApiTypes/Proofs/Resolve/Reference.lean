import ApiTypes.Proofs.OpenApi.Nodes
import ApiTypes.Resolve.Reference
import Mathlib.Data.List.Perm.Subperm
import Mathlib.Logic.Relation

/-!
# Where references lead

A reference leads to a component under the name that it ends in, and following it leads to a
component that is no reference (`Description.component_of_followFrom`). The references that are
followed are different, and all but the first one stand in components, so the budget is never used
up: following takes at most one round more than there are references
(`Description.exists_rounds_of_reference?`), and it fails with a cycle only if the references come
back to one that was followed before (`Description.cycle_of_follow`). Where it finds no component,
it tells the last reference and the node that this one is (`Description.stray_of_follow`).
-/

set_option autoImplicit false

namespace ApiTypes

namespace Pointer

/-- A reference to a component ends in its name. -/
theorem lastSegment_of_componentName? {reference section_ name : String}
    (h : componentName? reference section_ = some name) : lastSegment reference = name := by
  unfold componentName? at h
  split at h
  · rename_i pointer hreference
    split at h
    · rename_i components place last hsplit
      split at h
      · simp only at h
        split at h
        · cases h
        · cases h
          have hsegments : splitSlash reference.toList = [['#'], components, place, last] := by
            have happend := splitSlash_append ['#'] pointer
            rw [List.singleton_append] at happend
            rw [hreference, happend, hsplit]
            rfl
          rw [lastSegment, hsegments]
          rfl
      · cases h
    · cases h
  · cases h

end Pointer

namespace Description

variable {d : Description}

/-- A reference leads to the component that it names. -/
theorem component_of_resolve? {reference : String} {n : SchemaNode}
    (h : d.resolve? reference = some n) :
    (Pointer.lastSegment reference, n) ∈ d.components ∧ d.IsRoot n := by
  unfold resolve? at h
  simp only [Option.bind_eq_bind, Option.bind_eq_some_iff] at h
  obtain ⟨name, hname, s, hs, heq⟩ := h
  cases heq
  rw [Pointer.lastSegment_of_componentName? hname]
  exact ⟨List.mem_map.mpr ⟨(name, s), mem_of_findValue? hs, rfl⟩, root?_component hs⟩

/-- **Following a reference leads to a component that is no reference.** -/
theorem component_of_followFrom {budget : Nat} {followed : List String} {reference : String}
    {location : SchemaKey} {n : SchemaNode} {name : String}
    (h : d.followFrom budget followed reference location = .ok (n, name)) :
    (name, n) ∈ d.components ∧ d.IsRoot n ∧ n.reference? = none := by
  induction budget generalizing followed reference location with
  | zero => cases h
  | succ budget ih =>
      rw [followFrom] at h
      split at h
      · cases h
      · cases ht : d.resolve? reference with
        | none =>
            simp only [ht] at h
            cases h
        | some target =>
            simp only [ht] at h
            cases hr : target.reference? with
            | some next =>
                simp only [hr] at h
                exact ih h
            | none =>
                simp only [hr] at h
                cases h
                obtain ⟨hmem, hroot⟩ := component_of_resolve? ht
                exact ⟨hmem, hroot, hr⟩

/-- The reference that the component of a reference is. -/
def Next (d : Description) (reference next : String) : Prop :=
  ∃ target, d.resolve? reference = some target ∧ target.reference? = some next

/-- The references that components are. -/
def componentReferences (d : Description) : List String :=
  d.components.filterMap fun entry => entry.2.reference?

theorem Next.mem_componentReferences {reference next : String} (h : d.Next reference next) :
    next ∈ d.componentReferences := by
  obtain ⟨target, ht, hr⟩ := h
  exact List.mem_filterMap.mpr ⟨_, (component_of_resolve? ht).1, hr⟩

theorem length_componentReferences_le : d.componentReferences.length ≤ d.schemas.length := by
  have h := List.length_filterMap_le (fun entry => SchemaNode.reference? entry.2) d.components
  rw [components, List.length_map] at h
  exact h

/-- Different references that components are, are not more than there are components. -/
theorem length_le_of_nodup {followed : List String} (hnodup : followed.Nodup)
    (h : ∀ reference ∈ followed, reference ∈ d.componentReferences) :
    followed.length ≤ d.schemas.length :=
  Nat.le_trans (List.subperm_of_subset hnodup h).length_le length_componentReferences_le

/-- What has been followed when a reference is about to be followed: the references before it, the
latest one first. -/
structure Trail (d : Description) (followed : List String) (reference : String) : Prop where
  /-- They are different. -/
  nodup : followed.Nodup
  /-- Each of them leads on to the reference. -/
  leads : ∀ earlier ∈ followed, Relation.TransGen d.Next earlier reference
  /-- All but the first one, and the reference itself, stand in components. -/
  inComponents : ∀ earlier ∈ (reference :: followed).dropLast,
    earlier ∈ d.componentReferences

theorem Trail.start (reference : String) : d.Trail [] reference where
  nodup := List.nodup_nil
  leads _ h := by cases h
  inComponents _ h := by cases h

theorem Trail.next {followed : List String} {reference next : String}
    (h : d.Trail followed reference) (hnew : reference ∉ followed)
    (hnext : d.Next reference next) : d.Trail (reference :: followed) next where
  nodup := List.nodup_cons.mpr ⟨hnew, h.nodup⟩
  leads earlier hmem := by
    rcases List.mem_cons.mp hmem with rfl | hmem
    · exact .single hnext
    · exact (h.leads earlier hmem).tail hnext
  inComponents earlier hmem := by
    rw [List.dropLast_cons_of_ne_nil (List.cons_ne_nil _ _)] at hmem
    rcases List.mem_cons.mp hmem with rfl | hmem
    · exact hnext.mem_componentReferences
    · exact h.inComponents earlier hmem

theorem Trail.length_le {followed : List String} {reference : String}
    (h : d.Trail followed reference) : followed.length ≤ d.schemas.length + 1 := by
  cases followed with
  | nil => exact Nat.zero_le _
  | cons latest earlier =>
      have hmem := h.inComponents
      rw [List.dropLast_cons_of_ne_nil (List.cons_ne_nil _ _)] at hmem
      have hsublist := List.dropLast_sublist (latest :: earlier)
      have hle := length_le_of_nodup (h.nodup.sublist hsublist) fun reference hr =>
        hmem reference (List.mem_cons_of_mem _ hr)
      rw [List.length_dropLast, List.length_cons] at hle
      rw [List.length_cons]
      omega

/-! ## Rounds -/

/-- The rounds that it takes to follow a reference, which stands at a location, past references
that were followed before, and what is told in the last of them. -/
inductive Rounds (d : Description) :
    List String → String → SchemaKey → Nat → Except Error (SchemaNode × String) → Prop
  | again {followed : List String} {reference : String} {location : SchemaKey} :
      reference ∈ followed →
      Rounds d followed reference location 1 (.error (.cyclicReference location.text))
  | lost {followed : List String} {reference : String} {location : SchemaKey} :
      reference ∉ followed → d.resolve? reference = none →
      Rounds d followed reference location 1
        (.error (.unresolvableReference reference location.text))
  | arrived {followed : List String} {reference : String} {location : SchemaKey}
      {target : SchemaNode} :
      reference ∉ followed → d.resolve? reference = some target → target.reference? = none →
      Rounds d followed reference location 1 (.ok (target, Pointer.lastSegment reference))
  | onward {followed : List String} {reference next : String} {location : SchemaKey}
      {target : SchemaNode} {rounds : Nat} {found : Except Error (SchemaNode × String)} :
      reference ∉ followed → d.resolve? reference = some target →
      target.reference? = some next →
      Rounds d (reference :: followed) next target.key rounds found →
      Rounds d followed reference location (rounds + 1) found

/-- **Following a reference takes no more rounds than there are references left, and one.** -/
theorem exists_rounds_of_followFrom (references : Finset String)
    (hcomponents : ∀ next ∈ d.componentReferences, next ∈ references) {budget : Nat}
    {followed : List String} {reference : String} (location : SchemaKey)
    (htrail : d.Trail followed reference)
    (hbudget : followed.length + budget = d.schemas.length + 2)
    (hmem : ∀ earlier ∈ reference :: followed, earlier ∈ references) :
    ∃ rounds,
      d.Rounds followed reference location rounds
        (d.followFrom budget followed reference location) ∧
      followed.length + rounds ≤ references.card + 1 := by
  induction budget generalizing followed reference location with
  | zero =>
      -- The budget allows for all components, which the trail cannot have passed.
      have hle := htrail.length_le
      omega
  | succ budget ih =>
      -- What was followed before is different, and all of it is among the references.
      have hlast : followed.length + 1 ≤ references.card + 1 := by
        have hsub : followed.toFinset ⊆ references := fun earlier he =>
          hmem earlier (List.mem_cons_of_mem _ (List.mem_toFinset.mp he))
        have hle := Finset.card_le_card hsub
        rw [List.toFinset_card_of_nodup htrail.nodup] at hle
        omega
      rw [followFrom]
      by_cases hin : reference ∈ followed
      · rw [if_pos hin]
        exact ⟨1, .again hin, hlast⟩
      · rw [if_neg hin]
        cases ht : d.resolve? reference with
        | none => exact ⟨1, .lost hin ht, hlast⟩
        | some target =>
            cases hr : target.reference? with
            | none =>
                simp only [hr]
                exact ⟨1, .arrived hin ht hr, hlast⟩
            | some next =>
                simp only [hr]
                have hnext : d.Next reference next := ⟨target, ht, hr⟩
                have hmem' : ∀ earlier ∈ next :: reference :: followed, earlier ∈ references := by
                  intro earlier he
                  rcases List.mem_cons.mp he with rfl | he
                  · exact hcomponents earlier hnext.mem_componentReferences
                  · exact hmem earlier he
                have hbudget' : (reference :: followed).length + budget
                    = d.schemas.length + 2 := by
                  rw [List.length_cons]
                  omega
                obtain ⟨rounds, hrounds, hle⟩ :=
                  ih target.key (htrail.next hin hnext) hbudget' hmem'
                rw [List.length_cons] at hle
                exact ⟨rounds + 1, .onward hin ht hr hrounds, by omega⟩

theorem componentReferences_subset {reference : String} (h : reference ∈ d.componentReferences) :
    reference ∈ d.references := by
  obtain ⟨⟨name, n⟩, hn, hr⟩ := List.mem_filterMap.mp h
  exact mem_references (nodes_subset_of_mem_components hn n.self_mem_nodes) hr

/-- **A reference of the description is followed in at most one round more than there are
references.** -/
theorem exists_rounds_of_reference? {n : SchemaNode} (hn : n ∈ d.nodes) {reference : String}
    (hr : n.reference? = some reference) :
    ∃ rounds, d.Rounds [] reference n.key rounds (d.follow reference n.key) ∧
      rounds ≤ d.references.card + 1 := by
  obtain ⟨rounds, hrounds, hle⟩ := exists_rounds_of_followFrom d.references
    (fun _ => componentReferences_subset) n.key (Trail.start reference) (Nat.zero_add _) (by
      intro earlier he
      rw [List.mem_singleton.mp he]
      exact mem_references hn hr)
  rw [List.length_nil, Nat.zero_add] at hle
  exact ⟨rounds, hrounds, hle⟩

/-! ## Cycles -/

/-- A node that is a reference from which a chain of references comes back to the same one. -/
structure Loops (d : Description) (n : SchemaNode) (reference : String) : Prop where
  /-- The node is the reference. -/
  reference_eq : n.reference? = some reference
  /-- The chain comes back. -/
  loops : Relation.TransGen d.Next reference reference

theorem Rounds.cycle {followed : List String} {reference text : String} {n : SchemaNode}
    {location : SchemaKey} {rounds : Nat} {found : Except Error (SchemaNode × String)}
    (h : d.Rounds followed reference location rounds found)
    (hlocation : location = n.key) (hn : n.reference? = some reference)
    (htrail : d.Trail followed reference) (hfound : found = .error (.cyclicReference text)) :
    ∃ m next, d.Loops m next ∧ text = m.key.text ∧ (m = n ∨ d.IsRoot m) := by
  induction h generalizing n with
  | @again followed reference location hin =>
      -- The reference was followed before, and has led back to itself.
      cases hfound
      exact ⟨n, reference, ⟨hn, htrail.leads reference hin⟩, by rw [hlocation], Or.inl rfl⟩
  | lost _ _ => cases hfound
  | arrived _ _ _ => cases hfound
  | onward hin ht hr _ ih =>
      obtain ⟨m, last, hloops, htext, hm⟩ := ih rfl hr (htrail.next hin ⟨_, ht, hr⟩) hfound
      refine ⟨m, last, hloops, htext, Or.inr ?_⟩
      -- After the first round all nodes are components.
      rcases hm with rfl | hroot
      · exact (component_of_resolve? ht).2
      · exact hroot

/-- Any node may be followed. -/
theorem exists_rounds_of_follow (reference : String) (location : SchemaKey) :
    ∃ rounds, d.Rounds [] reference location rounds (d.follow reference location) := by
  -- The reference is counted along with those of the components.
  obtain ⟨rounds, hrounds, _⟩ := exists_rounds_of_followFrom (insert reference d.references)
    (fun _ hnext => Finset.mem_insert_of_mem (componentReferences_subset hnext)) location
    (Trail.start reference) (Nat.zero_add _) (by
      intro earlier he
      rw [List.mem_singleton.mp he]
      exact Finset.mem_insert_self _ _)
  exact ⟨rounds, hrounds⟩

/-- **Following a reference fails with a cycle only where references come back.** -/
theorem cycle_of_follow {reference text : String} {n : SchemaNode}
    (hn : n.reference? = some reference)
    (h : d.follow reference n.key = .error (.cyclicReference text)) :
    ∃ m next, d.Loops m next ∧ text = m.key.text ∧ (m = n ∨ d.IsRoot m) := by
  obtain ⟨rounds, hrounds⟩ := exists_rounds_of_follow (d := d) reference n.key
  exact hrounds.cycle rfl hn (Trail.start reference) h

/-! ## References that lead nowhere -/

/-- A node that is a reference to no component. -/
structure Strays (d : Description) (n : SchemaNode) (reference : String) : Prop where
  /-- The node is the reference. -/
  reference_eq : n.reference? = some reference
  /-- It leads nowhere. -/
  resolve?_eq : d.resolve? reference = none

theorem Rounds.stray {followed : List String} {reference lost text : String} {n : SchemaNode}
    {location : SchemaKey} {rounds : Nat} {found : Except Error (SchemaNode × String)}
    (h : d.Rounds followed reference location rounds found)
    (hlocation : location = n.key) (hn : n.reference? = some reference)
    (hfound : found = .error (.unresolvableReference lost text)) :
    ∃ m, d.Strays m lost ∧ text = m.key.text ∧ (m = n ∨ d.IsRoot m) := by
  induction h generalizing n with
  | again _ => cases hfound
  | lost _ ht =>
      cases hfound
      exact ⟨n, ⟨hn, ht⟩, by rw [hlocation], Or.inl rfl⟩
  | arrived _ _ _ => cases hfound
  | onward _ ht hr _ ih =>
      -- The location moves on along with the reference.
      obtain ⟨m, hstrays, htext, hm⟩ := ih rfl hr hfound
      refine ⟨m, hstrays, htext, Or.inr ?_⟩
      rcases hm with rfl | hroot
      · exact (component_of_resolve? ht).2
      · exact hroot

/-- **Following a reference ends nowhere only at a node that leads nowhere.** -/
theorem stray_of_follow {reference lost text : String} {n : SchemaNode}
    (hn : n.reference? = some reference)
    (h : d.follow reference n.key = .error (.unresolvableReference lost text)) :
    ∃ m, d.Strays m lost ∧ text = m.key.text ∧ (m = n ∨ d.IsRoot m) := by
  obtain ⟨rounds, hrounds⟩ := exists_rounds_of_follow (d := d) reference n.key
  exact hrounds.stray rfl hn h

end Description

end ApiTypes
