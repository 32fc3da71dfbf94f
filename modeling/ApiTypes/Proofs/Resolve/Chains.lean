import ApiTypes.Proofs.Resolve.Reference

/-!
# How chains of references end

A node that is a reference leads to a component, which may be a reference again, and so on. Such a
chain ends in exactly one of three ways: it arrives at a component that is no reference, it is lost
at a reference to no component, or it goes on forever (`Description.Ends`). Nothing is said about
how a reference is spelled, or which node was met before.

Following a reference compares the texts of references instead, and stops after a number of rounds.
It nevertheless tells how the chain ends, for every description and every node
(`Description.dereference_tells`): a text that comes back starts a chain that comes back forever,
and a chain that goes on forever cannot give another answer.
-/

set_option autoImplicit false

namespace ApiTypes.Description

variable {d : Description} {n m k : SchemaNode}

/-! ## Chains -/

/-- A node is a reference to another one. -/
def RefersTo (d : Description) (n m : SchemaNode) : Prop :=
  ∃ reference, n.reference? = some reference ∧ d.resolve? reference = some m

/-- The chain of references from a node comes by another one. -/
def ComesBy (d : Description) : SchemaNode → SchemaNode → Prop :=
  Relation.ReflTransGen d.RefersTo

/-- The ways in which a chain of references may end. -/
inductive Ending where
  /-- At a schema that is no reference. -/
  | arrived (target : SchemaNode)
  /-- At a node whose reference leads to no component. -/
  | lost (holder : SchemaNode) (reference : String)
  /-- Not at all. -/
  | never

/-- How the chain of references from a node ends. -/
def Ends (d : Description) (n : SchemaNode) : Ending → Prop
  | .arrived m => d.ComesBy n m ∧ m.reference? = none
  | .lost m reference => d.ComesBy n m ∧ d.Strays m reference
  | .never => ∃ chain : Nat → SchemaNode, chain 0 = n ∧ ∀ i, d.RefersTo (chain i) (chain (i + 1))

theorem RefersTo.unique (h : d.RefersTo n m) (h' : d.RefersTo n k) : m = k := by
  obtain ⟨reference, hr, hm⟩ := h
  obtain ⟨reference', hr', hk⟩ := h'
  obtain rfl : reference = reference' := Option.some.inj (hr.symm.trans hr')
  exact Option.some.inj (hm.symm.trans hk)

/-- The chain from a node goes on as the chain from the next one. -/
theorem Ends.head (h : d.RefersTo n m) {ending : Ending} (hm : d.Ends m ending) :
    d.Ends n ending := by
  cases ending with
  | arrived target =>
      obtain ⟨hcomes, hnone⟩ := hm
      exact ⟨.head h hcomes, hnone⟩
  | lost holder reference =>
      obtain ⟨hcomes, hstrays⟩ := hm
      exact ⟨.head h hcomes, hstrays⟩
  | never =>
      obtain ⟨chain, hstart, hstep⟩ := hm
      refine ⟨fun i => i.casesOn n chain, rfl, ?_⟩
      intro i
      cases i with
      | zero =>
          rw [← hstart] at h
          exact h
      | succ i => exact hstep i

/-- A property that every node hands on to the next one keeps the chain going. -/
theorem ends_never_of_invariant {P : SchemaNode → Prop}
    (hstep : ∀ n, P n → ∃ m, d.RefersTo n m ∧ P m) (hn : P n) : d.Ends n .never := by
  choose! next hnext using hstep
  -- The chain follows the choice, and the property along with it.
  have hkeeps : ∀ i, P (next^[i] n) := by
    intro i
    induction i with
    | zero => exact hn
    | succ i ih =>
        rw [Function.iterate_succ_apply']
        exact (hnext _ ih).2
  refine ⟨fun i => next^[i] n, rfl, ?_⟩
  intro i
  simp only [Function.iterate_succ_apply']
  exact (hnext _ (hkeeps i)).1

/-! ## A chain ends in one way only -/

/-- No chain goes on from a node. -/
def Stops (d : Description) (n : SchemaNode) : Prop := ∀ m, ¬ d.RefersTo n m

theorem stops_of_reference?_eq_none (h : n.reference? = none) : d.Stops n := by
  rintro m ⟨reference, hr, -⟩
  rw [h] at hr
  cases hr

theorem Strays.stops {reference : String} (h : d.Strays n reference) : d.Stops n := by
  rintro m ⟨reference', hr, hm⟩
  rw [h.reference_eq] at hr
  cases hr
  rw [h.resolve?_eq] at hm
  cases hm

theorem Stops.eq_of_comesBy (h : d.Stops n) (hm : d.ComesBy n m) : m = n := by
  rcases hm.cases_head with rfl | ⟨next, hnext, -⟩
  · rfl
  · exact absurd hnext (h next)

/-- A chain comes by one node only at which it stops. -/
theorem ComesBy.stop_unique (hm : d.ComesBy n m) (hstop : d.Stops m) (hk : d.ComesBy n k)
    (hstop' : d.Stops k) : m = k := by
  have hunique : Relator.RightUnique d.RefersTo := fun _ _ _ h h' => h.unique h'
  rcases Relation.ReflTransGen.total_of_right_unique hunique hm hk with hmk | hkm
  · exact (hstop.eq_of_comesBy hmk).symm
  · exact hstop'.eq_of_comesBy hkm

/-- A chain that goes on forever goes on from every node that it comes by. -/
theorem ComesBy.not_stops (hm : d.ComesBy n m) (hnever : d.Ends n .never) : ¬ d.Stops m := by
  induction hm using Relation.ReflTransGen.head_induction_on with
  | refl =>
      obtain ⟨chain, rfl, hstep⟩ := hnever
      intro hstop
      exact hstop _ (hstep 0)
  | head hnext _ ih =>
      obtain ⟨chain, rfl, hstep⟩ := hnever
      apply ih
      -- The rest of the chain starts at the only node that may come next.
      exact ⟨fun i => chain (i + 1), (hstep 0).unique hnext, fun i => hstep (i + 1)⟩

/-- **A chain ends in at most one way.** -/
theorem Ends.unique {ending ending' : Ending} (h : d.Ends n ending) (h' : d.Ends n ending') :
    ending = ending' := by
  cases ending with
  | arrived m =>
      obtain ⟨hm, hnone⟩ := h
      have hstop := stops_of_reference?_eq_none (d := d) hnone
      cases ending' with
      | arrived k =>
          obtain ⟨hk, hnone'⟩ := h'
          rw [hm.stop_unique hstop hk (stops_of_reference?_eq_none hnone')]
      | lost k reference =>
          obtain ⟨hk, hstrays⟩ := h'
          obtain rfl := hm.stop_unique hstop hk hstrays.stops
          rw [hstrays.reference_eq] at hnone
          cases hnone
      | never => exact absurd hstop (hm.not_stops h')
  | lost m reference =>
      obtain ⟨hm, hstrays⟩ := h
      cases ending' with
      | arrived k =>
          obtain ⟨hk, hnone⟩ := h'
          obtain rfl := hm.stop_unique hstrays.stops hk (stops_of_reference?_eq_none hnone)
          rw [hstrays.reference_eq] at hnone
          cases hnone
      | lost k reference' =>
          obtain ⟨hk, hstrays'⟩ := h'
          obtain rfl := hm.stop_unique hstrays.stops hk hstrays'.stops
          have hreference := hstrays.reference_eq.symm.trans hstrays'.reference_eq
          rw [Option.some.inj hreference]
      | never => exact absurd hstrays.stops (hm.not_stops h')
  | never =>
      cases ending' with
      | arrived k =>
          obtain ⟨hk, hnone⟩ := h'
          exact absurd (stops_of_reference?_eq_none hnone) (hk.not_stops h)
      | lost k reference =>
          obtain ⟨hk, hstrays⟩ := h'
          exact absurd hstrays.stops (hk.not_stops h)
      | never => rfl

/-! ## What following a reference tells -/

/-- What is told of a chain that ends in some way. -/
def Ending.Tells (d : Description) : Ending → Except Error (SchemaNode × String) → Prop
  | .arrived m, found => ∃ name, (name, m) ∈ d.components ∧ found = .ok (m, name)
  | .lost m reference, found => found = .error (.unresolvableReference reference m.key.text)
  | .never, found => ∃ text, found = .error (.cyclicReference text)

/-- A reference that leads back to itself starts a chain that goes on forever. -/
theorem ends_never_of_transGen {reference : String} (hn : n.reference? = some reference)
    (hloop : Relation.TransGen d.Next reference reference) : d.Ends n .never := by
  apply ends_never_of_invariant
    (P := fun m => ∃ text, m.reference? = some text ∧ Relation.TransGen d.Next text text)
  · rintro m ⟨text, hm, hback⟩
    -- After the first step the way back goes on with that step.
    obtain ⟨next, hnext, hrest⟩ := Relation.TransGen.head'_iff.mp hback
    obtain ⟨target, ht, hr⟩ := hnext
    exact ⟨target, ⟨text, hm, ht⟩, next, hr, .tail' hrest ⟨target, ht, hr⟩⟩
  · exact ⟨reference, hn, hloop⟩

/-- The rounds of following a reference end as its chain does. -/
theorem Rounds.exists_ending {followed : List String} {reference : String} {location : SchemaKey}
    {rounds : Nat} {found : Except Error (SchemaNode × String)}
    (h : d.Rounds followed reference location rounds found)
    (hlocation : location = n.key) (hn : n.reference? = some reference)
    (htrail : d.Trail followed reference) : ∃ ending, d.Ends n ending ∧ ending.Tells d found := by
  induction h generalizing n with
  | @again followed reference location hin =>
      -- The trail leads from each reference that was followed to the latest one.
      exact ⟨.never, ends_never_of_transGen hn (htrail.leads reference hin), _, rfl⟩
  | @lost followed reference location _ ht =>
      subst hlocation
      exact ⟨.lost n reference, ⟨.refl, hn, ht⟩, rfl⟩
  | @arrived followed reference location target _ ht hr =>
      have hmem := (component_of_resolve? ht).1
      exact ⟨.arrived target, ⟨.single ⟨reference, hn, ht⟩, hr⟩, _, hmem, rfl⟩
  | onward hin ht hr _ ih =>
      obtain ⟨ending, hends, htells⟩ := ih rfl hr (htrail.next hin ⟨_, ht, hr⟩)
      exact ⟨ending, hends.head ⟨_, hn, ht⟩, htells⟩

/-- Every chain of references ends in some way, which following it tells. -/
theorem exists_ending {reference : String} (hn : n.reference? = some reference) :
    ∃ ending, d.Ends n ending ∧ ending.Tells d (d.follow reference n.key) := by
  obtain ⟨rounds, hrounds⟩ := exists_rounds_of_follow (d := d) reference n.key
  exact hrounds.exists_ending rfl hn (Trail.start reference)

namespace Ending

variable {ending : Ending} {found : Except Error (SchemaNode × String)}

theorem Tells.eq_ok_iff (h : ending.Tells d found) (name : String) :
    found = .ok (m, name) ↔ ending = .arrived m ∧ m.key = SchemaKey.component name := by
  cases ending with
  | arrived target =>
      obtain ⟨name', hmem, rfl⟩ := h
      have hkey := key_of_mem_components hmem
      constructor
      · intro heq
        cases heq
        exact ⟨rfl, hkey⟩
      · rintro ⟨heq, hname⟩
        cases heq
        -- A key is made of one name only.
        rw [SchemaKey.component_inj (hkey.symm.trans hname)]
  | lost holder reference =>
      cases h
      simp
  | never =>
      obtain ⟨text, rfl⟩ := h
      simp

theorem Tells.eq_unresolvable_iff (h : ending.Tells d found) (lost text : String) :
    found = .error (.unresolvableReference lost text) ↔
      ∃ m, ending = .lost m lost ∧ m.key.text = text := by
  cases ending with
  | arrived target =>
      obtain ⟨name, -, rfl⟩ := h
      simp
  | lost holder reference =>
      cases h
      constructor
      · intro heq
        cases heq
        exact ⟨holder, rfl, rfl⟩
      · rintro ⟨m, heq, rfl⟩
        cases heq
        rfl
  | never =>
      obtain ⟨text, rfl⟩ := h
      simp

theorem Tells.eq_cyclic_iff (h : ending.Tells d found) :
    (∃ text, found = .error (.cyclicReference text)) ↔ ending = .never := by
  cases ending with
  | arrived target =>
      obtain ⟨name, -, rfl⟩ := h
      simp
  | lost holder reference =>
      cases h
      simp
  | never =>
      obtain ⟨text, rfl⟩ := h
      simp

end Ending

/-- What is told of a reference is told of the node that it is. -/
theorem dereference_eq {reference : String} (hn : n.reference? = some reference) :
    d.dereference n = (d.follow reference n.key).map some := by
  rw [dereference, hn]

theorem dereference_eq_ok_iff {reference : String} (hn : n.reference? = some reference)
    (found : SchemaNode × String) :
    d.dereference n = .ok (some found) ↔ d.follow reference n.key = .ok found := by
  rw [dereference_eq hn]
  cases d.follow reference n.key with
  | error e => simp [Except.map]
  | ok other => simp [Except.map]

theorem dereference_eq_error_iff {reference : String} (hn : n.reference? = some reference)
    (e : Error) : d.dereference n = .error e ↔ d.follow reference n.key = .error e := by
  rw [dereference_eq hn]
  cases d.follow reference n.key with
  | error e => simp [Except.map]
  | ok other => simp [Except.map]

/-- **A reference is followed to the end of its chain.** A chain ends in exactly one way. It arrives
at a component exactly if this is what is told, with the name that the key of the component is made
of; it is lost exactly if the reference that leads nowhere is told, with the key of the node that
holds it; and a cycle is told exactly if it never ends, that is, if it neither arrives nor is
lost. -/
theorem dereference_tells {reference : String} (hn : n.reference? = some reference) :
    (∃! ending, d.Ends n ending) ∧
    (∀ m name, d.dereference n = .ok (some (m, name)) ↔
      d.Ends n (.arrived m) ∧ m.key = SchemaKey.component name) ∧
    (∀ lost text, d.dereference n = .error (.unresolvableReference lost text) ↔
      ∃ m, d.Ends n (.lost m lost) ∧ m.key.text = text) ∧
    ((∃ text, d.dereference n = .error (.cyclicReference text)) ↔ d.Ends n .never) ∧
    (d.Ends n .never ↔ (¬ ∃ m, d.Ends n (.arrived m)) ∧ ¬ ∃ m lost, d.Ends n (.lost m lost)) := by
  obtain ⟨ending, hends, htells⟩ := exists_ending (d := d) hn
  have honly : ∀ other, d.Ends n other ↔ ending = other := by
    intro other
    constructor
    · exact hends.unique
    · rintro rfl
      exact hends
  refine ⟨⟨ending, hends, fun _ h => h.unique hends⟩, ?_, ?_, ?_, ?_⟩
  · intro m name
    rw [dereference_eq_ok_iff hn, honly, htells.eq_ok_iff]
  · intro lost text
    rw [dereference_eq_error_iff hn, htells.eq_unresolvable_iff]
    simp only [honly]
  · simp only [dereference_eq_error_iff hn, honly, htells.eq_cyclic_iff]
  · simp only [honly]
    cases ending with
    | arrived target => simp
    | lost holder lost => simp
    | never => simp

/-- A description in which references spell names in several ways. -/
def spelledReferences : Description where
  dialect := .early
  version := "3.0.0"
  schemas :=
    [("A", .reference "#/components/schemas/B"),
      ("B", .reference "#/components/schemas/%41"),
      ("C", .reference "#/components/schemas/D%2Fe"),
      ("D/e", .inline {} [] [] [] [] none .any),
      ("F", .reference "#/components/schemas/~1")]

/-- `A` leads to `B`, which leads back to `A` under another spelling; `C` leads to `D/e`, and `F` to
the component `/`, which there is not. -/
theorem dereference_tells_spellings :
    let a : SchemaNode := ⟨.component "A", .reference "#/components/schemas/B"⟩
    let c : SchemaNode := ⟨.component "C", .reference "#/components/schemas/D%2Fe"⟩
    let f : SchemaNode := ⟨.component "F", .reference "#/components/schemas/~1"⟩
    let e : SchemaNode := ⟨.component "D/e", .inline {} [] [] [] [] none .any⟩
    a.reference? = some "#/components/schemas/B" ∧ spelledReferences.Ends a .never ∧
    c.reference? = some "#/components/schemas/D%2Fe" ∧ spelledReferences.Ends c (.arrived e) ∧
    f.reference? = some "#/components/schemas/~1" ∧
      ∃ m, spelledReferences.Ends f (.lost m "#/components/schemas/~1") ∧
        m.key.text = "#/components/schemas/F" := by
  intro a c f e
  have ha : spelledReferences.dereference a
      = .error (.cyclicReference "#/components/schemas/A") := by with_unfolding_all rfl
  have hc : spelledReferences.dereference c = .ok (some (e, "D/e")) := by
    with_unfolding_all rfl
  have hf : spelledReferences.dereference f
      = .error (.unresolvableReference "#/components/schemas/~1" "#/components/schemas/F") := by
    with_unfolding_all rfl
  obtain ⟨-, -, -, hnever, -⟩ := dereference_tells (d := spelledReferences) (n := a) rfl
  obtain ⟨-, harrived, -⟩ := dereference_tells (d := spelledReferences) (n := c) rfl
  obtain ⟨-, -, hlost, -⟩ := dereference_tells (d := spelledReferences) (n := f) rfl
  exact ⟨rfl, hnever.mp ⟨_, ha⟩, rfl, ((harrived e "D/e").mp hc).1, rfl, (hlost _ _).mp hf⟩

end ApiTypes.Description
