import ApiTypes.Proofs.Walk.Depth
import ApiTypes.Proofs.Walk.Settled

/-!
# Why walks fail

A walk fails where a reference cannot be followed, where nothing can be demanded of a schema, or
where a schema is met again that is being resolved and reserves no slot (`Resolver.Fails`). Such a
schema is around that of one other schema and lies on a cycle of demands; and it is a component,
or the schema that the walk started with, since every other schema has one parent alone and the
walk cannot come back to it but through that parent.
-/

set_option autoImplicit false

namespace ApiTypes

theorem getLast_or_next {α : Type} {R : α → α → Prop} {l : List α} (h : l.IsChain R) {y : α}
    (hy : y ∈ l) : l.getLast? = some y ∨ ∃ p ∈ l.tail, R y p := by
  induction l with
  | nil => cases hy
  | cons x rest ih =>
      cases rest with
      | nil =>
          rw [List.mem_singleton.mp hy]
          exact Or.inl rfl
      | cons x' rest =>
          obtain ⟨hx, hchain⟩ := List.isChain_cons_cons.mp h
          rcases List.mem_cons.mp hy with rfl | hmem
          · exact Or.inr ⟨x', List.mem_cons_self, hx⟩
          · rcases ih hchain hmem with hlast | ⟨p, hp, hr⟩
            · exact Or.inl (by rw [List.getLast?_cons_cons]; exact hlast)
            · exact Or.inr ⟨p, List.mem_of_mem_tail hp, hr⟩

namespace Resolver

/-- The schema that is around that of one other schema. -/
def IsWrapper (r : Resolver) (path : Option String) (v : Visit) : Prop :=
  ∃ item shape, r.demand path v = .wrapper item shape

/-- The schema from which the walk started: the outermost one that is being resolved, or else one
that the call begins with. -/
def Foot (r : Resolver) (stack : List Visit) (c : Call) (v : Visit) : Prop :=
  stack.getLast? = some v ∨ (stack = [] ∧ ∃ x ∈ c.visits, r.enter x = .ok v)

/-- Why a call fails. -/
inductive Fails (r : Resolver) (path : Option String) (P : Visit → Prop) (stack : List Visit)
    (c : Call) : Error → Prop
  | strayed {v : Visit} {e : Error} :
      (v ∈ c.visits ∨ ∃ u, P u ∧ ∃ child ∈ (r.demand path u).children, v = child.visit) →
      r.enter v = .error e → Fails r path P stack c e
  | fault {v : Visit} {e : Error} : P v → v.node.reference? = none → r.demand path v = .fault e →
      Fails r path P stack c e
  | cyclic {v : Visit} : P v → r.IsWrapper path v →
      Relation.TransGen (r.Link path) v.node.key v.node.key →
      (v.isNamed = true ∨ ∃ u, r.Foot stack c u ∧ u.node.key = v.node.key) →
      Fails r path P stack c (.cyclicReference v.node.key.text)
  | deep {text : String} : Fails r path P stack c (.tooDeep text)

variable {r : Resolver} {path : Option String} {P : Visit → Prop} {stack : List Visit} {c : Call}
  {v w : Visit} {e : Error}

/-- Why a call below the innermost schema fails. -/
theorem Fails.below {below : Call} (hw : P w)
    (hvisits : ∀ x ∈ below.visits, ∃ child ∈ (r.demand path w).children, x = child.visit)
    (hin : ∃ x ∈ c.visits, r.enter x = .ok w)
    (h : r.Fails path P (w :: stack) below e) : r.Fails path P stack c e := by
  cases h with
  | strayed hv he =>
      refine .strayed (Or.inr ?_) he
      rcases hv with hmem | hu
      · exact ⟨w, hw, hvisits _ hmem⟩
      · exact hu
  | fault hv hr hd => exact .fault hv hr hd
  | cyclic hv hwrapper hcycle hfoot =>
      refine .cyclic hv hwrapper hcycle (hfoot.imp_right ?_)
      rintro ⟨u, hu, hkey⟩
      refine ⟨u, ?_, hkey⟩
      rcases hu with hlast | ⟨hnil, _⟩
      · cases stack with
        | nil =>
            rw [List.getLast?_singleton] at hlast
            cases hlast
            exact Or.inr ⟨rfl, hin⟩
        | cons x rest =>
            rw [List.getLast?_cons_cons] at hlast
            exact Or.inl hlast
      · cases hnil
  | deep => exact .deep

/-- Why a part of a call fails. -/
theorem Fails.of_part {part : Call} (hvisits : ∀ x ∈ part.visits, x ∈ c.visits)
    (h : r.Fails path P stack part e) : r.Fails path P stack c e := by
  cases h with
  | strayed hv he => exact .strayed (hv.imp_left (hvisits _)) he
  | fault hv hr hd => exact .fault hv hr hd
  | cyclic hv hwrapper hcycle hfoot =>
      refine .cyclic hv hwrapper hcycle (hfoot.imp_right ?_)
      rintro ⟨u, hu, hkey⟩
      refine ⟨u, hu.imp_right ?_, hkey⟩
      rintro ⟨hnil, x, hx, hin⟩
      exact ⟨hnil, x, hvisits x hx, hin⟩
  | deep => exact .deep

/-- A schema that leads on and reserves no slot is around that of one other schema. -/
theorem isWrapper_of_leads (h : r.Leads path v w) (hc : (r.demand path v).isComposite = false) :
    r.IsWrapper path v := by
  obtain ⟨child, hchild, _⟩ := h
  cases hd : r.demand path v with
  | fault e =>
      rw [hd] at hchild
      cases hchild
  | block inner last =>
      rw [hd] at hchild
      cases hchild
  | wrapper item shape => exact ⟨item, shape, hd⟩
  | composite children shape =>
      rw [hd] at hc
      cases hc

/-- Schemas of one key are alike in that they are around that of one other schema. -/
theorem IsWrapper.of_key_eq (h : r.IsWrapper path v) (hv : v.Proper r.description)
    (hw : w.Proper r.description) (hkey : v.node.key = w.node.key) : r.IsWrapper path w := by
  obtain ⟨item, shape, hd⟩ := h
  have houtline := outline_demand path hv hw hkey
  rw [hd] at houtline
  cases hd' : r.demand path w with
  | fault e => rw [hd'] at houtline; cases houtline
  | block inner last => rw [hd'] at houtline; cases houtline
  | wrapper item' shape' => exact ⟨item', shape', hd'⟩
  | composite children shape' => rw [hd'] at houtline; cases houtline

/-- **A schema that is met again while it is being resolved, and reserves no slot.** -/
theorem Standing.fails_of_cyclic (hd : r.description.Tidy) (hP : r.Ranges path P)
    {s : WalkState} (hs : r.Standing path P stack s) (hv : r.Admits path P stack v)
    (hin : r.enter v = .ok w) (hlookup : s.types.lookup (r.keyOf path w) = none)
    (hpending : r.keyOf path w ∈ s.pending) :
    r.Fails path P stack (.one v) (.cyclicReference w.node.key.text) := by
  rw [hs.pending_eq] at hpending
  obtain ⟨y, hy, hkeyOf⟩ := List.mem_map.mp hpending
  have hkey : y.node.key = w.node.key := congrArg MemoKey.schema hkeyOf
  have hPw : P w := hv.holds w hin
  have hPy : P y := hs.holds y hy
  cases stack with
  | nil => cases hy
  | cons u rest =>
      have hPu : P u := hs.holds u List.mem_cons_self
      have hlead : r.Leads path u w := hv.leads w hin u rfl
      have hreach := Standing.reaches_head hP rest u hs.holds hs.chain hy
      have hcycle : Relation.TransGen (r.Link path) w.node.key w.node.key := by
        rw [hkey] at hreach
        exact Relation.TransGen.tail' hreach ⟨u, w, hP.proper u hPu, hlead, rfl, rfl⟩
      have hnotComposite : (r.demand path y).isComposite = false := by
        cases hc : (r.demand path y).isComposite with
        | false => rfl
        | true =>
            obtain ⟨id, hl, _⟩ := hs.open_lookup y hy hc
            rw [hkeyOf, hlookup] at hl
            cases hl
      -- The schema leads on: to the one above it on the stack, or to itself.
      have hleads : ∃ x, r.Leads path y x := by
        obtain ⟨k, hlink, _⟩ := Relation.TransGen.head'_iff.mp hcycle
        obtain ⟨a, b, ha, hab, hak, _⟩ := hlink
        obtain ⟨x, hx, _⟩ := hab.of_key_eq ha (hP.proper y hPy) (hak.trans hkey.symm)
        exact ⟨x, hx⟩
      have hwrapper : r.IsWrapper path w := by
        obtain ⟨x, hx⟩ := hleads
        exact (isWrapper_of_leads hx hnotComposite).of_key_eq (hP.proper y hPy)
          (hP.proper w hPw) hkey
      refine .cyclic hPw hwrapper hcycle ?_
      cases hnamed : w.isNamed with
      | true => exact Or.inl rfl
      | false =>
          refine Or.inr ⟨y, Or.inl ?_, hkey⟩
          rcases getLast_or_next hs.chain hy with hlast | ⟨p, hp, hpy⟩
          · exact hlast
          · have hyNamed : y.isNamed = false := by
              rw [((hP.proper y hPy).eq_of_key_eq (hP.proper w hPw) hkey).2.1]
              exact hnamed
            have hPp : P p := hs.holds p (List.mem_cons_of_mem _ hp)
            have hsame : p.node = u.node := hpy.parent_unique hd hlead (hP.proper p hPp)
              (hP.proper u hPu) hkey hyNamed hnamed
            have hnodup := hs.nodup
            rw [hs.pending_eq, List.map_cons, List.nodup_cons] at hnodup
            refine absurd ?_ hnodup.1
            have hmem : r.keyOf path p ∈ rest.map (r.keyOf path) := List.mem_map_of_mem hp
            rw [keyOf_eq, hsame] at hmem
            exact hmem

end Resolver

/-- **Why a call fails that starts from schemas being resolved.** -/
theorem Walked.fails {r : Resolver} {path : Option String} {P : Visit → Prop} {depth : Nat}
    {c : Call} {s s' : WalkState} {out : Except Error c.Out} (hd : r.description.Tidy)
    (hP : r.Ranges path P) (h : Walked r path depth c s out s') {e : Error} (he : out = .error e)
    {stack : List Visit} (hs : r.Standing path P stack s) (hc : c.Admitted r path P stack) :
    r.Fails path P stack c e := by
  induction h generalizing stack with
  | deep =>
      cases he
      exact .deep
  | strayed hv =>
      cases he
      exact .strayed (Or.inl List.mem_cons_self) hv
  | found hv hl => cases he
  | cyclic hv hl hp =>
      cases he
      exact hs.fails_of_cyclic hd hP hc hv hl hp
  | fault hin hd' =>
      cases he
      exact .fault (hc.holds _ hin.enter_eq) (Resolver.reference?_of_enter hin.enter_eq) hd'
  | block hin hd' => cases he
  | @wrapperFails depth v w s s₁ item shape e' hin hd' _ ih =>
      cases he
      have hw : P w := hc.holds w hin.enter_eq
      have hdc : (r.demand path w).isComposite = false := by rw [hd']; rfl
      have hitem : item ∈ (r.demand path w).children := by
        rw [hd']
        exact List.mem_cons_self
      have hfails := ih rfl (hs.push hc hin hdc) (Resolver.Standing.admits hP hw hitem)
      refine hfails.below hw (fun x hx => ?_) ⟨v, List.mem_cons_self, hin.enter_eq⟩
      exact ⟨item, hitem, List.mem_singleton.mp hx⟩
  | wrapper hin hd' _ ih => cases he
  | @compositeFails depth v w s s₁ children shape e' hin hd' _ ih =>
      cases he
      have hw : P w := hc.holds w hin.enter_eq
      have hdc : (r.demand path w).isComposite = true := by rw [hd']; rfl
      have hfails := ih rfl (hs.start hc hin hdc) fun child hchild =>
        Resolver.Standing.admits hP hw (hd' ▸ hchild)
      refine hfails.below hw (fun x hx => ?_) ⟨v, List.mem_cons_self, hin.enter_eq⟩
      obtain ⟨child, hchild, rfl⟩ := List.mem_map.mp hx
      refine ⟨child, ?_, rfl⟩
      rw [hd']
      exact hchild
  | composite hin hd' _ ih => cases he
  | nil => cases he
  | @headFails depth child rest s s₁ e' _ ih =>
      cases he
      refine (ih rfl hs (hc child List.mem_cons_self)).of_part fun x hx => ?_
      rw [List.mem_singleton.mp hx]
      exact List.mem_map_of_mem List.mem_cons_self
  | @tailFails depth child rest s s₁ s₂ e' id h₁ _ ih₁ ih₂ =>
      cases he
      have hs₁ := (h₁.standing hP rfl hs (hc child List.mem_cons_self)).1
      refine (ih₂ rfl hs₁ fun c' hc' => hc c' (List.mem_cons_of_mem _ hc')).of_part fun x hx => ?_
      exact List.mem_cons_of_mem _ hx
  | cons _ _ ih₁ ih₂ => cases he

/-- Why a call for a proper schema fails where nothing is being resolved. -/
theorem Resolver.Settled.fails {r : Resolver} {path : Option String} {s s' : WalkState}
    (hs : r.Settled (Visit.Proper r.description) s) (hd : r.description.Tidy) {depth : Nat}
    {v : Visit} {e : Error} (hv : v.Proper r.description)
    (h : Walked r path depth (.one v) s (.error e) s') :
    r.Fails path (Visit.Proper r.description) [] (.one v) e :=
  h.fails hd (ranges_proper hd path) rfl (hs.standing path)
    ⟨fun _ hw => proper_of_enter hv hw, fun _ _ u hu => by cases hu⟩

end ApiTypes
