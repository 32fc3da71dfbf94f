import ApiTypes.Proofs.Store.Bounds
import ApiTypes.Proofs.Walk.Calls
import ApiTypes.Proofs.Walk.Results

/-!
# What types are written with

Items and type arguments are resolved before the type that is written with them, and no type that
may be found early is written with others. So parts stand before what they are parts of, in every
store (`Answered.partsBefore`). **In a store that requests produced, answered or failed, no parts go
round in a circle, and what is written of a type is the one solution of its recursion**
(`TypeStore.Produced.written`).
-/

set_option autoImplicit false

namespace ApiTypes

namespace ModelType

theorem parts_rename (f : TypeId → TypeId) (t : ModelType) :
    (t.rename f).parts = t.parts.map f := by
  cases t with
  | _ => rfl

theorem parts_eq_nil {t : ModelType} (h : t.references = []) : t.parts = [] := by
  cases t with
  | array item c d => exact h
  | map item c d => exact h
  | mapped name package generics isArray c d => exact h
  | _ => rfl

theorem parts_keepItems (keep : TypeId → Bool) (t : ModelType) :
    (t.keepItems keep).parts = t.parts := by
  cases t with
  | _ => rfl

end ModelType

/-- In the types of a demand parts stand before what they are parts of. -/
def Demand.PartsBefore : Demand → Prop
  | fault _ => True
  | block inner last =>
      ∀ (k : Nat) (t : ModelType), (inner ++ [last])[k]? = some t → ∀ j : Nat, j ∈ t.parts → j < k
  | wrapper _ _ => True
  | composite _ shape => shape.parts = []

namespace Target

mutual

theorem lt_of_getElem?_typesFrom (start : Nat) : ∀ (t : Target) (k : Nat) (m : ModelType),
    (typesFrom start t)[k]? = some m → ∀ j : Nat, j ∈ m.parts → j < start + k
  | ⟨name, args⟩, k, m, hm, j, hj => by
      rw [typesFrom, List.getElem?_append] at hm
      split at hm
      · exact lt_of_getElem?_allTypesFrom start args k m hm j hj
      · -- The type itself stands behind the types of all its arguments.
        rename_i hk
        rw [length_allTypesFrom] at hk
        rw [List.mem_singleton.mp (List.mem_of_getElem? hm)] at hj
        have hplace : j ∈ places start args := hj
        have := (lt_of_mem_places hplace).2
        omega

/-- The types that type arguments are written with stand before them. -/
theorem lt_of_getElem?_allTypesFrom (start : Nat) : ∀ (ts : List Target) (k : Nat) (m : ModelType),
    (allTypesFrom start ts)[k]? = some m → ∀ j : Nat, j ∈ m.parts → j < start + k
  | [], k, m, hm, j, hj => by cases hm
  | t :: rest, k, m, hm, j, hj => by
      rw [allTypesFrom, List.getElem?_append] at hm
      split at hm
      · exact lt_of_getElem?_typesFrom start t k m hm j hj
      · rename_i hk
        rw [length_typesFrom] at hk hm
        have := lt_of_getElem?_allTypesFrom _ rest _ m hm j hj
        omega

end

end Target

namespace Resolver

variable (r : Resolver) (path : Option String) (n : SchemaNode) (name : String)

theorem partsBefore_single {t : ModelType} (h : t.references = []) :
    (Demand.block [] t).PartsBefore := by
  intro k u hu j hj
  rw [List.mem_singleton.mp (List.mem_of_getElem? hu), ModelType.parts_eq_nil h] at hj
  cases hj

theorem partsBefore_demandOfRule (rule : Rule) : (r.demandOfRule n name rule).PartsBefore := by
  refine demandOfRule_cases (fun _ => trivial) (fun _ _ _ => trivial) fun target k t ht j hj => ?_
  rw [List.getElem?_append] at ht
  split at ht
  · have := Target.lt_of_getElem?_allTypesFrom 0 target.args k t ht j hj
    omega
  · rename_i hk
    rw [Target.length_allTypesFrom] at hk
    rw [List.mem_singleton.mp (List.mem_of_getElem? ht)] at hj
    have hplace : j ∈ Target.places 0 target.args := hj
    have := (Target.lt_of_mem_places hplace).2
    omega

theorem partsBefore_demandOfType : (r.demandOfType n name).PartsBefore := by
  refine demandOfType_cases (fun _ => trivial) (fun _ => partsBefore_single) (fun _ _ => trivial)
    ?_ (fun _ _ => trivial) rfl
  rintro (_ | _ | k) t ht j hj
  · cases ht
    cases hj
  · cases ht
    rw [List.mem_singleton.mp hj]
    exact Nat.zero_lt_one
  · cases ht

theorem partsBefore_demand (v : Visit) : (r.demand path v).PartsBefore := by
  unfold demand
  split
  · exact partsBefore_demandOfRule r v.node v.name _
  · exact demandOfShape_cases (fun _ => rfl) (fun _ _ _ => rfl)
      (partsBefore_demandOfType r v.node v.name)

theorem partsBefore_useDemand {use : Use} {w : Visit} {demand : Demand}
    (h : r.useDemand path use w = some demand) : demand.PartsBefore :=
  useDemand_cases r path (fun _ => trivial) (fun _ => partsBefore_single)
    (partsBefore_demandOfRule r w.node w.name) h

end Resolver

/-! ## Stores -/

namespace TypeStore.PartsBefore

variable {s s' : TypeStore}

theorem empty : TypeStore.PartsBefore {} := by
  rintro i j h
  cases h.lt_size

/-- A store with no new types. -/
theorem same (h : s.PartsBefore) (hget : ∀ i : Nat, s'.get? i = s.get? i) : s'.PartsBefore := by
  rintro i j ⟨t, ht, hj⟩
  exact h i j ⟨t, hget i ▸ ht, hj⟩

theorem addBlock (h : s.PartsBefore) {inner : List ModelType} {last : ModelType}
    (hbefore : (Demand.block inner last).PartsBefore) : (s.addBlock inner last).2.PartsBefore := by
  rintro i j ⟨t, ht, hj⟩
  rw [get?_addBlock] at ht
  split at ht
  · exact h i j ⟨t, ht, hj⟩
  · obtain ⟨u, hu, rfl⟩ := Option.map_eq_some_iff.mp ht
    rw [ModelType.parts_rename, List.mem_map] at hj
    obtain ⟨place, hplace, rfl⟩ := hj
    have hlt : (place : Nat) < i - s.size := hbefore _ u hu place hplace
    exact Nat.add_lt_of_lt_sub' hlt

/-- A type around an earlier one. -/
theorem add (h : s.PartsBefore) (shape : ModelType) {id : Nat} (hid : id < s.size) :
    (s.add (shape.rename fun _ => id)).2.PartsBefore := by
  rintro i j ⟨t, ht, hj⟩
  rw [get?_add] at ht
  split at ht
  · rename_i hi
    cases ht
    rw [ModelType.parts_rename, List.mem_map] at hj
    obtain ⟨_, _, rfl⟩ := hj
    rw [hi]
    exact hid
  · exact h i j ⟨t, ht, hj⟩

/-- A type that may be found early is written with no other one. -/
theorem fill (h : s.PartsBefore) (id : Nat) {shape : ModelType} (hshape : shape.parts = [])
    (found : List (Nat × Bool)) : (s.fill id (Demand.filled shape found)).PartsBefore := by
  rintro i j ⟨t, ht, hj⟩
  rw [get?_fill] at ht
  split at ht
  · cases ht
    rw [Demand.filled, ModelType.parts_rename, ModelType.parts_keepItems, hshape] at hj
    cases hj
  · exact h i j ⟨t, ht, hj⟩

end TypeStore.PartsBefore

/-- **In calls parts stand before what they are parts of, however the calls end.** -/
theorem Walked.partsBefore {r : Resolver} {path : Option String} {depth : Nat} {c : Call}
    {s s' : WalkState} {out : Except Error c.Out} (h : Walked r path depth c s out s')
    (hclosed : s.types.Closed) (hs : s.types.PartsBefore) : s'.types.PartsBefore := by
  have hstart : ∀ {s : WalkState} {key : MemoKey}, s.types.PartsBefore →
      (s.start key).types.PartsBefore := fun hs => hs.same fun i => by
    rw [WalkState.types_start, TypeStore.get?_remember, TypeStore.get?_reserve]
  induction h with
  | deep => exact hs
  | strayed hv => exact hs
  | found hv hl => exact hs
  | cyclic hv hl hp => exact hs
  | fault hin hd => exact hs
  | @block depth v w s inner last hin hd =>
      have hbefore : (Demand.block inner last).PartsBefore := hd ▸ r.partsBefore_demand path w
      refine (hs.addBlock hbefore).same fun i => ?_
      rw [WalkState.types_withTypes, Resolver.get?_settle]
  | wrapperFails hin hd _ ih => exact ih hclosed hs
  | @wrapper depth v w s s₁ item shape id hin hd h₁ ih =>
      -- The item has its slot before the type around it is added.
      have hid : id < s₁.types.size := (h₁.closed hclosed).2 id rfl
      refine ((ih hclosed hs).add shape hid).same fun i => ?_
      rw [Resolver.types_settled, Resolver.get?_settle, WalkState.types_withTypes]
  | compositeFails hin hd _ ih => exact ih (WalkState.closed_start hclosed _) (hstart hs)
  | @composite depth v w s s₁ children shape found hin hd h₁ ih =>
      -- The slot stands before those below, but its type is written with none of them.
      have hshape : shape.parts = [] := by
        have hbefore := r.partsBefore_demand path w
        rw [hd] at hbefore
        exact hbefore
      have hs₁ := ih (WalkState.closed_start hclosed _) (hstart hs)
      refine (hs₁.fill s.types.size hshape found).same fun i => ?_
      rw [Resolver.types_settled, Resolver.get?_settle, WalkState.types_withTypes]
  | nil => exact hs
  | headFails _ ih => exact ih hclosed hs
  | tailFails h₁ _ ih₁ ih₂ => exact ih₂ (h₁.closed hclosed).1 (ih₁ hclosed hs)
  | cons h₁ _ ih₁ ih₂ => exact ih₂ (h₁.closed hclosed).1 (ih₁ hclosed hs)

/-- **In requests parts stand before what they are parts of, however the requests end.** -/
theorem Answered.partsBefore {r : Resolver} {q : Request} {s s' : WalkState}
    {out : Except Error Resolved} (h : Answered r q s out s') (hclosed : s.types.Closed)
    (hs : s.types.PartsBefore) : s'.types.PartsBefore := by
  cases h with
  | component h => exact h.partsBefore hclosed hs
  | componentFails h => exact h.partsBefore hclosed hs
  | strayed hv => exact hs
  | shared hv hd h => exact h.partsBefore hclosed hs
  | sharedFails hv hd h => exact h.partsBefore hclosed hs
  | fault hv hd => exact hs
  | block hv hd =>
      refine (hs.addBlock (Resolver.partsBefore_useDemand r _ hd)).same fun i => ?_
      rw [Resolver.types_owned, TypeStore.get?_annotateAll, WalkState.types_withTypes]
  | @wrapper path use n name w _ s₁ item shape id hv hd h =>
      have hid : id < s₁.types.size := (h.closed hclosed).2 id rfl
      refine ((h.partsBefore hclosed hs).add shape hid).same fun i => ?_
      rw [Resolver.types_owned, TypeStore.get?_annotateAll, WalkState.types_withTypes]
  | wrapperFails hv hd h => exact h.partsBefore hclosed hs

/-! ## Stores that requests produce -/

/-- The stores that come from the empty one by requests, one after the other. Each of them may be
made of another resolver and while anything is being resolved, and it may fail. -/
inductive TypeStore.Produced : TypeStore → Prop
  | empty : Produced {}
  | ask (r : Resolver) (q : Request) {s : WalkState} :
      Produced s.types → Produced ((r.ask q).outcome s).2.types

namespace TypeStore.Produced

variable {s : TypeStore}

theorem closed (h : s.Produced) : s.Closed := by
  induction h with
  | empty => exact TypeStore.Closed.empty
  | ask r q _ ih => exact ((answered_ask q _).closed ih).1

theorem partsBefore (h : s.Produced) : s.PartsBefore := by
  induction h with
  | empty => exact TypeStore.PartsBefore.empty
  | ask r q hs ih => exact (answered_ask q _).partsBefore hs.closed ih

end TypeStore.Produced

/-- A run that succeeds leaves a store that requests produce. -/
theorem Resolver.produced_of_run {r : Resolver} {api : ResolvedApi} (h : r.run = .ok api) :
    api.types.Produced := by
  obtain ⟨s, hs, htypes⟩ := run_invariant (I := fun s => s.types.Produced) h .empty
    fun q s told s' _ hans hs => by
      have hask := TypeStore.Produced.ask r q hs
      rw [hans.outcome_eq] at hask
      exact hask
  rw [htypes]
  exact hs

/-- **At the end of a run that succeeds parts stand before what they are parts of.** -/
theorem Resolver.partsBefore_of_run {r : Resolver} {api : ResolvedApi} (h : r.run = .ok api) :
    api.types.PartsBefore :=
  (produced_of_run h).partsBefore

/-- **What is written of a store that requests produce.** Items and type arguments have smaller
numbers than the types that are written with them. So no type is written inside itself, going from
types to what they are written with ends, and names, packages and imports are told along this way,
each by a recursion that has one solution. -/
theorem TypeStore.Produced.written {s : TypeStore} (h : s.Produced) :
    s.PartsBefore ∧ (∀ i, ¬ Relation.TransGen s.HasPart i i) ∧
    (WellFounded fun j i => s.HasPart i j) ∧ s.Written := by
  have hparts := h.partsBefore
  refine ⟨hparts, fun i hcycle => ?_, hparts.wellFounded, hparts.toWritten⟩
  exact absurd (TypeStore.lt_of_transGen hparts hcycle) (Nat.lt_irrefl i)

/-- A response that is an array of pets. -/
def petsRequest : Request :=
  .use (some "/pets") (.response "application/json")
    ⟨⟨"#/paths/~1pets/get/responses/200/content/application~1json/schema"⟩,
      .inline { type := some "array" } [] [] [] [] (some petReference) .none⟩ "GetPetsResponse200"

/-- The state after a request of one resolver that failed and one of another for that response. -/
def petsState : WalkState :=
  ((Resolver.mk petDescription {}).ask petsRequest |>.outcome
    ((Resolver.mk brokenDescription {}).ask brokenRequest |>.outcome {}).2).2

/-- The array is the last type, written with that of a pet before it; the first slot is still the
reserved one of the request that failed. -/
theorem written_of_petsState :
    petsState.types.Produced ∧ petsState.types.get? (0 : Nat) = none ∧
    petsState.types.HasPart 3 1 ∧ (1 : Nat) < 3 ∧ ¬ Relation.TransGen petsState.types.HasPart 3 3 ∧
    petsState.types.textWithin 4 .generated 3 = petsState.types.typeName 3 ∧
    petsState.types.typeName 3 = "Pet[]" := by
  have hproduced : petsState.types.Produced := .ask _ _ (.ask _ _ .empty)
  have hpart : petsState.types.HasPart 3 1 := by
    have hlisted : petsState.types.listed ModelType.parts 3 = [1] := by decide +kernel
    cases hget : petsState.types.get? (3 : Nat) with
    | none =>
        rw [TypeStore.listed, hget] at hlisted
        cases hlisted
    | some t =>
        refine ⟨t, hget, ?_⟩
        rw [TypeStore.listed, hget] at hlisted
        rw [Option.map_some, Option.getD_some] at hlisted
        rw [hlisted]
        exact List.mem_singleton_self 1
  have hnone : petsState.types.get? (0 : Nat) = none :=
    Option.isNone_iff_eq_none.mp (by decide +kernel)
  obtain ⟨hparts, hacyclic, _, hwritten⟩ := hproduced.written
  exact ⟨hproduced, hnone, hpart, hparts 3 1 hpart, hacyclic 3,
    hwritten.text_depth 4 3 (Nat.lt_succ_self 3) .generated, by decide +kernel⟩

end ApiTypes
