import ApiTypes.Proofs.Walk.Cycles
import ApiTypes.Proofs.Walk.Components

/-!
# Components that tie a knot

A component around one other schema may lie on a cycle of demands (`Resolver.Knot`). If the
components can be resolved in some order, then in another order they can fail with nothing but a
cycle at such a component (`Complete.knot_of_resolveComponents`), and no cycle is made of schemas
around one other schema alone (`Complete.not_onBareCycle`). And they do fail if such a component
comes first.
-/

set_option autoImplicit false

namespace ApiTypes

namespace Resolver

/-- A component around one other schema that lies on a cycle of demands. -/
structure Knot (r : Resolver) (name : String) (n : SchemaNode) : Prop where
  /-- It is a component. -/
  mem : (name, n) ∈ r.description.components
  /-- It is no reference. -/
  reference?_eq : n.reference? = none
  /-- It is around one other schema. -/
  wrapper : r.IsWrapper none ⟨n, name, true⟩
  /-- It lies on a cycle. -/
  onCycle : r.OnCycle none ⟨n, name, true⟩

variable {r : Resolver} {s s' : WalkState} {v w : Visit}

/-- What components lead to is no reference. -/
theorem Reached.reference?_eq (h : r.Reached v) : v.node.reference? = none := by
  cases h with
  | component _ hin => exact reference?_of_enter hin
  | step _ hlead =>
      obtain ⟨_, _, hin⟩ := hlead
      exact reference?_of_enter hin

namespace Complete

/-- **Where all components are resolved no cycle is made of schemas around one other schema
alone.** -/
theorem not_onBareCycle (hd : r.description.Tidy) (h : r.Complete s) (hv : r.Reached v) :
    ¬ r.OnBareCycle none v := by
  intro hcycle
  obtain ⟨id, hl⟩ := h.lookup_some v hv
  rw [h.settled.lookup_of_onBareCycle (ranges_reached hd) hcycle] at hl
  cases hl

/-- Why a component fails if all components can be resolved in some order. -/
theorem knot_of_answered (hd : r.description.Tidy) (h : r.Complete s) {s₁ : WalkState}
    {name : String} {n : SchemaNode} {e : Error} (hmem : (name, n) ∈ r.description.components)
    (hs₁ : r.Settled r.Reached s₁) (hans : Answered r (.component n name) s₁ (.error e) s') :
    ∃ name n, r.Knot name n ∧ ¬ r.OnBareCycle none ⟨n, name, true⟩ ∧
      e = .cyclicReference n.key.text := by
  have hdeep := hans.ne_tooDeep
  cases hans with
  | componentFails hw =>
      have hadmits : r.Admits none r.Reached [] ⟨n, name, true⟩ :=
        ⟨fun w hin => Reached.component hmem hin, fun _ _ u hu => by cases hu⟩
      have hfails := hw.fails hd (ranges_reached hd) rfl (hs₁.standing none) hadmits
      cases hfails with
      | @strayed v e hv he =>
          rcases hv with hvisit | ⟨u, hu, child, hchild, rfl⟩
          · obtain ⟨w, hin⟩ := h.enters name n hmem
            rw [List.mem_singleton.mp hvisit, hin] at he
            cases he
          · obtain ⟨id, hl⟩ := h.lookup_some u hu
            obtain ⟨i, w, hin, _⟩ := (h.meets hd hu hl).1.finds hchild
            rw [hin] at he
            cases he
      | @fault v e hv _ hdemand =>
          obtain ⟨id, hl⟩ := h.lookup_some v hv
          exact absurd hdemand (h.meets hd hv hl).1.not_fault
      | @cyclic v hv hwrapper hcycle hfoot =>
          have hnamed : v.isNamed = true := by
            rcases hfoot with hnamed | ⟨u, hlast | ⟨_, x, hx, hin⟩, hkey⟩
            · exact hnamed
            · cases hlast
            · rw [List.mem_singleton.mp hx] at hin
              have hu : r.Reached u := Reached.component hmem hin
              rw [← hu.unique hd hv hkey]
              exact isNamed_of_enter hin
          have hvisit : v = ⟨v.node, v.name, true⟩ := by
            rw [← hnamed]
          refine ⟨v.name, v.node, ⟨(hv.proper hd).named hnamed, hv.reference?_eq, ?_, ?_⟩, ?_, rfl⟩
          · rw [← hvisit]
            exact hwrapper
          · exact hcycle
          · rw [← hvisit]
            exact h.not_onBareCycle hd hv
      | deep => exact absurd rfl (hdeep _)

/-- **Why components cannot be resolved in one order, but in another one.** -/
theorem knot_of_resolveComponents (hd : r.description.Tidy) (h : r.Complete s)
    {components : List (String × SchemaNode)} {e : Error}
    (hsub : ∀ entry ∈ components, entry ∈ r.description.components)
    (hfails : (r.resolveComponents components).outcome {} = (.error e, s')) :
    ∃ name n, r.Knot name n ∧ ¬ r.OnBareCycle none ⟨n, name, true⟩ ∧
      e = .cyclicReference n.key.text := by
  have hask : (r.askAll (componentRequests components)).outcome {} = (.error e, s') := by
    rw [← silent_resolveComponents, Walk.outcome_silent, hfails]
  have hentry : ∀ q ∈ componentRequests components, ∃ name n, q = .component n name ∧
      (name, n) ∈ r.description.components := by
    intro q hq
    obtain ⟨⟨name, n⟩, hmem, rfl⟩ := List.mem_map.mp hq
    exact ⟨name, n, rfl, hsub _ hmem⟩
  obtain ⟨q, hq, s₁, hs₁, hans⟩ := answered_of_askAll_error (I := r.Settled r.Reached)
    (fun q hq s told s' hans hs => by
      obtain ⟨name, n, rfl, hmem⟩ := hentry q hq
      cases hans with
      | component hw =>
          exact (hs.of_walked (ranges_reached hd) hw fun w hin => Reached.component hmem hin).1)
    hask (Settled.empty r _)
  obtain ⟨name, n, rfl, hmem⟩ := hentry q hq
  exact h.knot_of_answered hd hmem hs₁ hans

end Complete

/-- Components cannot be resolved in an order that begins with a knot. -/
theorem Knot.fails (hd : r.description.Tidy) {name : String} {n : SchemaNode}
    (h : r.Knot name n) {rest : List (String × SchemaNode)} {s : WalkState}
    {models : List (String × TypeId)} :
    ¬ (r.resolveComponents ((name, n) :: rest)).outcome {} = (.ok models, s) := by
  intro hok
  obtain ⟨id, others, s₁, _, hans, _⟩ := answered_of_resolveComponents_cons hok
  have hv := Visit.proper_component hd h.mem
  cases hans with
  | component hw =>
      exact (Settled.empty r _).not_onCycle (ranges_proper hd none) hw
        (fun w hin => proper_of_enter hv hin) (enter_of_reference?_eq_none h.reference?_eq) rfl
        h.wrapper h.onCycle

end Resolver

end ApiTypes
