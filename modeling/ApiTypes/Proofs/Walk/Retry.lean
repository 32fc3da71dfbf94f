import ApiTypes.Proofs.Walk.Closed
import Mathlib.Logic.Relation

/-!
# Calls after a failure

What a call that fails has stored stays. Either it has stored nothing, and the same call fails
again; or it has reserved a slot that stays without a type, and the same call succeeds at once, with
a slot from which that slot is reached (`Answered.retry`).
-/

set_option autoImplicit false

namespace ApiTypes

/-! ## Slots that are reached -/

namespace TypeStore

/-- The type in a slot refers to another slot. -/
def Refers (s : TypeStore) (i j : Nat) : Prop :=
  ∃ t, s.get? i = some t ∧ j ∈ t.references

/-- A slot is reached from another one. -/
def Reaches (s : TypeStore) : Nat → Nat → Prop := Relation.ReflTransGen s.Refers

/-- A slot from which one without a type is reached. -/
def Hollow (s : TypeStore) (i : Nat) : Prop :=
  ∃ j, s.Reaches i j ∧ j < s.size ∧ s.get? j = none

variable {s s' : TypeStore} {i j : Nat}

/-- What is reached is a slot. -/
theorem Closed.lt_of_reaches (h : s.Closed) (hreach : s.Reaches i j) (hi : i < s.size) :
    j < s.size := by
  induction hreach with
  | refl => exact hi
  | tail _ hrefers _ =>
      obtain ⟨t, ht, hmem⟩ := hrefers
      exact h.references_lt _ t ht _ hmem

/-- Slots that are added change nothing about what is reached. -/
theorem Hollow.mono (h : s.Hollow i) (hsize : s.size ≤ s'.size)
    (hget : ∀ k : Nat, k < s.size → s'.get? k = s.get? k) : s'.Hollow i := by
  obtain ⟨j, hreach, hlt, hnone⟩ := h
  refine ⟨j, ?_, Nat.lt_of_lt_of_le hlt hsize, ?_⟩
  · induction hreach using Relation.ReflTransGen.head_induction_on with
    | refl => exact Relation.ReflTransGen.refl
    | head hrefers _ ih =>
        obtain ⟨t, ht, hmem⟩ := hrefers
        refine Relation.ReflTransGen.head ⟨t, ?_, hmem⟩ ih
        rw [hget _ (lt_size_of_get? s ht)]
        exact ht
  · rw [hget j hlt]
    exact hnone

/-- A slot without a type is hollow. -/
theorem Hollow.of_get?_eq_none (hlt : i < s.size) (hnone : s.get? i = none) : s.Hollow i :=
  ⟨i, Relation.ReflTransGen.refl, hlt, hnone⟩

/-- A slot that refers to a hollow one is hollow. -/
theorem Hollow.of_refers (h : s.Hollow j) (hrefers : s.Refers i j) : s.Hollow i := by
  obtain ⟨k, hreach, hk⟩ := h
  exact ⟨k, Relation.ReflTransGen.head hrefers hreach, hk⟩

/-- A type that is added for a hollow slot makes a hollow one. -/
theorem Hollow.add {shape : ModelType} (h : s.Hollow i) (hshape : (0 : Nat) ∈ shape.references) :
    (s.add (shape.rename fun _ => i)).2.Hollow s.size := by
  have hgrows : Grows s (s.add (shape.rename fun _ => i)).2 := (Grows.refl s).add _
  refine (h.mono hgrows.size_le hgrows.get?_eq).of_refers ⟨shape.rename fun _ => i, ?_, ?_⟩
  · rw [get?_add, if_pos rfl]
  · rw [ModelType.references_rename, List.mem_map]
    exact ⟨0, hshape, rfl⟩

end TypeStore

/-! ## Types around another one refer to it -/

/-- A type that is demanded around another one refers to it. -/
def Demand.RefersToItem (demand : Demand) : Prop :=
  ∀ item shape, demand = .wrapper item shape → (0 : Nat) ∈ shape.references

theorem Demand.refersToItem_wrapper (item : Child) {shape : ModelType}
    (h : (0 : Nat) ∈ shape.references) : (wrapper item shape).RefersToItem := by
  rintro _ _ ⟨⟩
  exact h

namespace Resolver

variable {r : Resolver} {path : Option String} {v : Visit}

theorem refersToItem_demandOfRule {n : SchemaNode} {name : String} {rule : Rule} :
    (r.demandOfRule n name rule).RefersToItem :=
  demandOfRule_cases (fun _ _ _ => nofun)
    (fun _ _ _ => Demand.refersToItem_wrapper _ List.mem_cons_self) fun _ _ _ => nofun

theorem refersToItem_demand : (r.demand path v).RefersToItem := by
  unfold demand
  split
  · exact refersToItem_demandOfRule
  · exact demandOfShape_cases (fun _ _ _ => nofun) (fun _ _ _ _ _ => nofun)
      (demandOfType_cases (fun _ _ _ => nofun) (fun _ _ _ _ => nofun)
        (fun _ _ => Demand.refersToItem_wrapper _ List.mem_cons_self) (fun _ _ => nofun)
        (fun _ _ => Demand.refersToItem_wrapper _ List.mem_cons_self) fun _ _ => nofun)

theorem refersToItem_useDemand {use : Use} {demand : Demand}
    (h : r.useDemand path use v = some demand) : demand.RefersToItem :=
  useDemand_cases r path (fun _ _ _ => nofun) (fun _ _ _ _ => nofun)
    (fun _ => refersToItem_demandOfRule) h

end Resolver

/-! ## Calls again -/

/-- **A call that fails stores nothing, or succeeds when it is made again.** It then tells of a slot
from which one without a type is reached. -/
theorem Walked.retry {r : Resolver} {path : Option String} {depth : Nat} {v : Visit}
    {s s' : WalkState} {e : Error} (h : Walked r path depth (.one v) s (.error e) s') :
    s' = s ∨ ∃ (id : Nat) (s'' : WalkState),
      Walked r path depth (.one v) s' (.ok id) s'' ∧ s''.types.Hollow id := by
  induction depth generalizing v s s' e with
  | zero =>
      cases h with
      | deep => exact Or.inl rfl
  | succ depth ih =>
      cases h with
      | strayed hv => exact Or.inl rfl
      | cyclic hv hl hp => exact Or.inl rfl
      | fault hin hd => exact Or.inl rfl
      | @wrapperFails depth v w s s₁ item shape e hin hd hw =>
          rcases ih hw with rfl | ⟨id, s₂, hagain, hhollow⟩
          · exact Or.inl (WalkState.pop_push s _)
          · refine Or.inr ?_
            have hpending : s₁.pending = r.keyOf path w :: s.pending := hw.pending_eq
            have hback : (s₁.pop (r.keyOf path w)).push (r.keyOf path w) = s₁ := by
              rw [WalkState.push, WalkState.pop, hpending, List.erase_cons_head, ← hpending]
            have hin' : r.Enters path v (s₁.pop (r.keyOf path w)) w := by
              refine ⟨hin.enter_eq, ?_, ?_⟩
              · exact hw.lookup_of_mem_pending List.mem_cons_self hin.lookup_eq
              · rw [WalkState.pending_pop, hpending, List.erase_cons_head]
                exact hin.notMem
            rw [← hback] at hagain
            refine ⟨_, _, .wrapper hin' hd hagain, ?_⟩
            have hadd := hhollow.add (Resolver.refersToItem_demand _ _ hd)
            rw [Resolver.types_settled]
            refine hadd.mono (Nat.le_of_eq (Resolver.size_settle r path w _ _).symm) fun k _ => ?_
            exact Resolver.get?_settle r path w _ _ k
      | @compositeFails depth v w s s₁ children shape e hin hd hw =>
          refine Or.inr ⟨s.types.size, _, .found hin.enter_eq ?_, ?_⟩
          · exact hw.grows.lookup_eq _ _ (WalkState.lookup_start s _)
          · have hlt : s.types.size < (s.start (r.keyOf path w)).types.size := by
              rw [WalkState.size_start]
              exact Nat.lt_succ_self _
            refine .of_get?_eq_none (Nat.lt_of_lt_of_le hlt hw.grows.size_le) ?_
            rw [WalkState.types_pop, hw.grows.get?_eq _ hlt, WalkState.types_start,
              TypeStore.get?_remember, TypeStore.get?_reserve]
            exact TypeStore.get?_eq_none_of_size_le _ (Nat.le_refl _)

/-- **A request that fails stores nothing, or succeeds when it is made again.** -/
theorem Answered.retry {r : Resolver} {q : Request} {s s' : WalkState} {e : Error}
    (h : Answered r q s (.error e) s') :
    s' = s ∨ ∃ (told : Resolved) (s'' : WalkState),
      Answered r q s' (.ok told) s'' ∧ s''.types.Hollow told.type := by
  cases h with
  | componentFails h =>
      refine h.retry.imp_right ?_
      rintro ⟨id, s'', hagain, hhollow⟩
      exact ⟨⟨id, []⟩, s'', .component hagain, hhollow⟩
  | strayed hv => exact Or.inl rfl
  | @sharedFails path use n name w s s' e hv hd h =>
      refine h.retry.imp_right ?_
      rintro ⟨id, s'', hagain, hhollow⟩
      exact ⟨r.answer path use w id, s'', .shared hv hd hagain, hhollow⟩
  | fault hv hd => exact Or.inl rfl
  | wrapperFails hv hd h =>
      refine h.retry.imp_right ?_
      rintro ⟨id, s₁, hagain, hhollow⟩
      refine ⟨_, _, .wrapper hv hd hagain, ?_⟩
      have hadd := hhollow.add (Resolver.refersToItem_useDemand hd _ _ rfl)
      refine hadd.mono (Nat.le_of_eq (TypeStore.size_annotateAll _ _ _).symm) fun k _ => ?_
      exact TypeStore.get?_annotateAll _ _ _ k

end ApiTypes
