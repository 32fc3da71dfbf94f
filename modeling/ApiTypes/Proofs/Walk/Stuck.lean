import ApiTypes.Proofs.Walk.Cycles
import ApiTypes.Proofs.Walk.Retry

/-!
# Schemas that are never resolved

A request that fails and stores nothing comes to a schema through schemas around one other schema
alone: to a reference that cannot be followed, a schema of which nothing can be demanded, or back
to one of these schemas (`Resolver.Stuck`). Such a schema is remembered in no state in which
everything that is remembered is met, so it fails again whatever was resolved in between
(`Answered.fails_again`).
-/

set_option autoImplicit false

namespace ApiTypes

namespace Resolver

/-- A schema that cannot be resolved, as schemas around one other schema alone tell. -/
inductive Stuck (r : Resolver) (path : Option String) : Visit → Prop
  | strayed {v : Visit} {e : Error} : r.enter v = .error e → Stuck r path v
  | fault {v w : Visit} {e : Error} :
      r.enter v = .ok w → r.demand path w = .fault e → Stuck r path v
  | cycle {v w : Visit} : r.enter v = .ok w → r.OnBareCycle path w → Stuck r path v
  | wrapper {v w : Visit} {item : Child} {shape : ModelType} :
      r.enter v = .ok w → r.demand path w = .wrapper item shape → Stuck r path item.visit →
      Stuck r path v

variable {r : Resolver} {path : Option String} {s s' : WalkState} {v w : Visit}

/-- Schemas of one key are alike in that nothing can be demanded of them. -/
theorem fault_of_key_eq {e : Error} (h : r.demand path v = .fault e)
    (hv : v.Proper r.description) (hw : w.Proper r.description)
    (hkey : v.node.key = w.node.key) : ∃ e', r.demand path w = .fault e' := by
  have houtline := outline_demand path hv hw hkey
  rw [h] at houtline
  cases hd : r.demand path w with
  | fault e' => exact ⟨e', rfl⟩
  | block inner last => rw [hd] at houtline; cases houtline
  | wrapper item shape => rw [hd] at houtline; cases houtline
  | composite children shape => rw [hd] at houtline; cases houtline

/-- **A schema that is stuck is remembered nowhere.** -/
theorem Stuck.lookup_eq_none (hd : r.description.Tidy)
    (hs : r.Settled (Visit.Proper r.description) s) (h : r.Stuck path v)
    (hv : v.Proper r.description) (hin : r.enter v = .ok w) :
    s.types.lookup (r.keyOf path w) = none := by
  induction h generalizing w with
  | strayed he =>
      rw [hin] at he
      cases he
  | cycle hin' hcycle =>
      rw [hin'] at hin
      cases hin
      exact hs.lookup_of_onBareCycle (ranges_proper hd path) hcycle
  | @fault v w' e hin' hdemand =>
      rw [hin'] at hin
      cases hin
      cases hl : s.types.lookup (r.keyOf path w') with
      | none => rfl
      | some id =>
          obtain ⟨y, hy⟩ := hs.known _ _ hl
          have hkey : w'.node.key = y.node.key := (congrArg MemoKey.schema hy.key_eq).symm
          obtain ⟨e', he'⟩ := fault_of_key_eq hdemand (proper_of_enter hv hin') hy.holds hkey
          rw [← demand_scope] at he'
          exact absurd he' hy.meets.not_fault
  | @wrapper v w' item shape hin' hdemand _ ih =>
      rw [hin'] at hin
      cases hin
      have hw : w'.Proper r.description := proper_of_enter hv hin'
      cases hl : s.types.lookup (r.keyOf path w') with
      | none => rfl
      | some id =>
          obtain ⟨y, hy⟩ := hs.known _ _ hl
          have hkey : y.node.key = w'.node.key := congrArg MemoKey.schema hy.key_eq
          have hwrapper : r.IsWrapper path w' := ⟨item, shape, hdemand⟩
          obtain ⟨item', shape', hdemand'⟩ := hwrapper.of_key_eq hw hy.holds hkey.symm
          -- What the schema is around is remembered as well, which it cannot be.
          have hscoped : r.demand (r.scopeOf path) y = .wrapper item' shape' := by
            rw [demand_scope]
            exact hdemand'
          obtain ⟨i, ⟨x, hx, hlx⟩, _⟩ := hy.meets.of_wrapper hscoped
          have hlead : r.Leads path y x := by
            refine ⟨item', ?_, hx⟩
            rw [hdemand']
            exact List.mem_cons_self
          obtain ⟨x', ⟨c, hc, hin⟩, hx'⟩ := hlead.of_key_eq hy.holds hw hkey
          rw [hdemand] at hc
          rw [List.mem_singleton.mp hc] at hin
          have hitem : item ∈ (r.demand path w').children := by
            rw [hdemand]
            exact List.mem_cons_self
          have hnone := ih (hw.child hd (node_mem_of_demand hitem)) hin
          have hkeys : r.keyOf (r.scopeOf path) x = r.keyOf path x' := by
            rw [keyOf_scope, keyOf_eq, keyOf_eq, hx']
          rw [← hkeys] at hnone
          have hsome : some i = none := hlx.symm.trans hnone
          cases hsome

/-- A call for a schema that is stuck fails. -/
theorem Stuck.not_ok (hd : r.description.Tidy)
    (hs : r.Settled (Visit.Proper r.description) s) (h : r.Stuck path v)
    (hv : v.Proper r.description) {depth : Nat} {id : TypeId} :
    ¬ Walked r path depth (.one v) s (.ok id) s' := by
  intro hw
  obtain ⟨hs', w, hin, hl⟩ := hs.of_walked (ranges_proper hd path) hw
    fun w hin => proper_of_enter hv hin
  rw [h.lookup_eq_none hd hs' hv hin] at hl
  cases hl

end Resolver

/-! ## Failures that store nothing -/

/-- **A schema at which a call fails that stores nothing is stuck.** -/
theorem Walked.stuck {r : Resolver} {path : Option String} {depth : Nat} {v : Visit}
    {s s' : WalkState} {e : Error} (hd : r.description.Tidy)
    (h : Walked r path depth (.one v) s (.error e) s') (hsame : s' = s)
    (hdeep : ∀ text, ¬ e = .tooDeep text) (hv : v.Proper r.description)
    (hpending : ∀ key ∈ s.pending, ∀ w, r.enter v = .ok w →
      Relation.TransGen (r.Around path) key.schema w.node.key) : r.Stuck path v := by
  induction depth generalizing v s s' with
  | zero =>
      cases h with
      | deep => exact absurd rfl (hdeep _)
  | succ depth ih =>
      cases h with
      | strayed he => exact .strayed he
      | cyclic hin hl hp => exact .cycle hin (hpending _ hp _ hin)
      | fault hin hdemand => exact .fault hin.enter_eq hdemand
      | @wrapperFails depth v w s s₁ item shape e hin hdemand hw =>
          have hproper : w.Proper r.description := Resolver.proper_of_enter hv hin.enter_eq
          have hitem : item ∈ (r.demand path w).children := by
            rw [hdemand]
            exact List.mem_cons_self
          have hback : s₁ = s.push (r.keyOf path w) := by
            rw [← hsame, WalkState.push, WalkState.pop, hw.pending_eq, WalkState.pending_push,
              List.erase_cons_head]
            have hs₁ : s₁.pending = r.keyOf path w :: s.pending := hw.pending_eq
            rw [← hs₁]
          have hx : item.visit.Proper r.description :=
            hproper.child hd (Resolver.node_mem_of_demand hitem)
          refine .wrapper hin.enter_eq hdemand (ih hw hback hx fun key hkey x hin' => ?_)
          have haround : r.Around path w.node.key x.node.key :=
            ⟨w, x, hproper, ⟨item, shape, hdemand⟩, ⟨item, hitem, hin'⟩, rfl, rfl⟩
          rcases List.mem_cons.mp hkey with rfl | hkey
          · exact Relation.TransGen.single haround
          · exact (hpending key hkey w hin.enter_eq).tail haround
      | @compositeFails depth v w s s₁ children shape e hin hdemand hw =>
          have hle := hw.grows.size_le
          have hsize : s₁.types.size = s.types.size := congrArg (fun state => state.types.size) hsame
          rw [WalkState.size_start] at hle
          omega

open Resolver in
/-- **A request that failed and stored nothing fails again.** -/
theorem Answered.fails_again {r : Resolver} (hd : r.description.Tidy) {q : Request}
    {s s₁ s₁' : WalkState} {e : Error} {out : Except Error Resolved}
    (hq : q.Proper r.description) (h : Answered r q s (.error e) s)
    (hs : s.pending = []) (hs₁ : r.Settled (Visit.Proper r.description) s₁)
    (h₁ : Answered r q s₁ out s₁') : ∃ e', out = .error e' := by
  have hdeep : ∀ text, ¬ e = .tooDeep text := fun text he =>
    h.ne_tooDeep text (congrArg _ he)
  have hv : q.visit.Proper r.description := hq.visit hd
  have hstuck : ∀ {path : Option String} {depth : Nat} {x : Visit}, x.Proper r.description →
      Walked r path depth (.one x) s (.error e) s → r.Stuck path x := by
    intro path depth x hx hw
    refine hw.stuck hd rfl hdeep hx fun key hkey => ?_
    rw [hs] at hkey
    cases hkey
  cases out with
  | error e' => exact ⟨e', rfl⟩
  | ok told =>
      exfalso
      cases h with
      | componentFails hw =>
          cases h₁ with
          | component hw₁ => exact (hstuck hv hw).not_ok hd hs₁ hv hw₁
      | strayed he =>
          cases h₁ with
          | shared hin₁ _ _ => cases he.symm.trans hin₁
          | block hin₁ _ => cases he.symm.trans hin₁
          | wrapper hin₁ _ _ => cases he.symm.trans hin₁
      | @sharedFails path use n name w s s' e hin hdemand hw =>
          have hx : w.Proper r.description := proper_of_enter hv hin
          cases h₁ with
          | shared hin₁ _ hw₁ =>
              cases hin.symm.trans hin₁
              exact (hstuck hx hw).not_ok hd hs₁ hx hw₁
          | block hin₁ hdemand₁ =>
              cases hin.symm.trans hin₁
              cases hdemand.symm.trans hdemand₁
          | wrapper hin₁ hdemand₁ _ =>
              cases hin.symm.trans hin₁
              cases hdemand.symm.trans hdemand₁
      | fault hin hdemand =>
          cases h₁ with
          | shared hin₁ hdemand₁ _ =>
              cases hin.symm.trans hin₁
              cases hdemand.symm.trans hdemand₁
          | block hin₁ hdemand₁ =>
              cases hin.symm.trans hin₁
              cases hdemand.symm.trans hdemand₁
          | wrapper hin₁ hdemand₁ _ =>
              cases hin.symm.trans hin₁
              cases hdemand.symm.trans hdemand₁
      | @wrapperFails path use n name w s s₁ item shape e hin hdemand hw =>
          have hx : item.visit.Proper r.description :=
            (proper_of_enter hv hin).child hd
              (SchemaNode.mem_children_items (node_mem_of_useDemand hdemand List.mem_cons_self))
          cases h₁ with
          | shared hin₁ hdemand₁ _ =>
              cases hin.symm.trans hin₁
              cases hdemand.symm.trans hdemand₁
          | block hin₁ hdemand₁ =>
              cases hin.symm.trans hin₁
              cases hdemand.symm.trans hdemand₁
          | wrapper hin₁ hdemand₁ hw₁ =>
              cases hin.symm.trans hin₁
              cases hdemand.symm.trans hdemand₁
              exact (hstuck hx hw).not_ok hd hs₁ hx hw₁

open Resolver in
/-- A component fails that leads to one that failed and stored nothing. -/
theorem Answered.fails_of_leads {r : Resolver} (hd : r.description.Tidy) {n m : SchemaNode}
    {name other : String} {w x : Visit} {s s₁ s₁' : WalkState} {e : Error}
    {out : Except Error Resolved} (hm : (Request.component m other).Proper r.description)
    (hn : (Request.component n name).Proper r.description)
    (h : Answered r (.component m other) s (.error e) s) (hs : s.pending = [])
    (hx : r.enter ⟨m, other, true⟩ = .ok x) (hw : r.enter ⟨n, name, true⟩ = .ok w)
    (hleads : Relation.ReflTransGen (r.Link none) w.node.key x.node.key)
    (hs₁ : r.Settled (Visit.Proper r.description) s₁)
    (h₁ : Answered r (.component n name) s₁ out s₁') : ∃ e', out = .error e' := by
  cases out with
  | error e' => exact ⟨e', rfl⟩
  | ok told =>
      exfalso
      have hdeep : ∀ text, ¬ e = .tooDeep text := fun text he =>
        h.ne_tooDeep text (congrArg _ he)
      have hmv := hm.visit hd
      have hnv := hn.visit hd
      have hstuck : r.Stuck none ⟨m, other, true⟩ := by
        cases h with
        | componentFails hfails =>
            refine hfails.stuck hd rfl hdeep hmv fun key hkey => ?_
            rw [hs] at hkey
            cases hkey
      cases h₁ with
      | component hcall =>
          obtain ⟨hs₁', w', hw', hl⟩ := hs₁.of_walked (ranges_proper hd none) hcall
            fun u hu => proper_of_enter hnv hu
          rw [hw] at hw'
          cases hw'
          have hall : ∀ key, Relation.ReflTransGen (r.Link none) w.node.key key →
              ∃ i, s₁'.types.lookup ⟨none, key⟩ = some i := by
            intro key hkey
            induction hkey with
            | refl => exact ⟨_, hl⟩
            | tail _ hlink ih =>
                obtain ⟨i, hi⟩ := ih
                exact (hs₁'.standing none).lookup_of_link (ranges_proper hd none) hlink hi
                  fun u hu => by cases hu
          obtain ⟨i, hi⟩ := hall _ hleads
          have hnone : none = some i := (hstuck.lookup_eq_none hd hs₁' hmv hx).symm.trans hi
          cases hnone

end ApiTypes
