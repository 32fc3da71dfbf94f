import ApiTypes.Proofs.Document.Characters
import ApiTypes.Proofs.OpenApi.Dangling
import ApiTypes.Proofs.OpenApi.Loading
import ApiTypes.Proofs.Walk.Failure

/-!
# Cycles

A run fails with a cycle only at a reference from which a chain of references comes back, or at a
schema around that of one other schema that lies on a cycle of demands and at which a walk may
enter the cycle (`Resolver.Entry`): a component, or the items of an array to which a rule for a use
gives a type. The cycle may well pass a schema that reserves a slot, if the walk does not come to
that schema first: a call for a schema that reserves no slot and lies on a cycle never succeeds
where nothing is being resolved (`Settled.not_onCycle`). Where each cycle that can be entered so is
made of schemas around one other schema each, a run fails with a cycle only where there is one with
nothing else on it.
-/

set_option autoImplicit false

namespace ApiTypes

namespace Resolver

/-- A schema around that of one other schema demands it, as their keys tell. -/
def Around (r : Resolver) (path : Option String) (key key' : SchemaKey) : Prop :=
  ∃ v w : Visit, v.Proper r.description ∧ r.IsWrapper path v ∧ r.Leads path v w ∧
    v.node.key = key ∧ w.node.key = key'

/-- A schema that lies on a cycle of demands. -/
def OnCycle (r : Resolver) (path : Option String) (v : Visit) : Prop :=
  Relation.TransGen (r.Link path) v.node.key v.node.key

/-- A schema that lies on a cycle of demands with none but schemas around one other schema. -/
def OnBareCycle (r : Resolver) (path : Option String) (v : Visit) : Prop :=
  Relation.TransGen (r.Around path) v.node.key v.node.key

/-- A schema around that of one other schema at which a walk may enter a cycle: a component, or
the items of an array to which a rule for a use gives a type. -/
structure Entry (r : Resolver) (path : Option String) (v : Visit) : Prop where
  /-- The schema is proper. -/
  proper : v.Proper r.description
  /-- It is around that of one other schema. -/
  wrapper : r.IsWrapper path v
  /-- It is a component, or the items for a use. -/
  entry : v.isNamed = true ∨ ∃ use w item shape,
    r.useDemand path use w = some (.wrapper item shape) ∧ v.node = item.node

variable {r : Resolver} {path : Option String} {P : Visit → Prop} {s s' : WalkState}
  {v w : Visit}

/-- **A schema on a cycle that reserves no slot is not resolved where nothing is being resolved.** -/
theorem Settled.not_onCycle (hs : r.Settled P s) (hP : r.Ranges path P) {depth : Nat} {id : Nat}
    (h : Walked r path depth (.one v) s (.ok id) s') (hv : ∀ w, r.enter v = .ok w → P w)
    (hin : r.enter v = .ok w) (hlookup : s.types.lookup (r.keyOf path w) = none)
    (hwrapper : r.IsWrapper path w) : ¬ r.OnCycle path w := by
  obtain ⟨item, shape, hd⟩ := hwrapper
  intro hcycle
  have hsame : ∀ x, r.enter v = .ok x → x = w := by
    intro x hx
    rw [hin] at hx
    cases hx
    rfl
  cases h with
  | found hv' hl =>
      rw [hsame _ hv', hlookup] at hl
      cases hl
  | block hin' hd' =>
      rw [hsame _ hin'.enter_eq, hd] at hd'
      cases hd'
  | composite hin' hd' =>
      rw [hsame _ hin'.enter_eq, hd] at hd'
      cases hd'
  | @wrapper depth v' x s s₁ item' shape' itemId hin' hd' hw =>
      have hx := hsame x hin'.enter_eq
      subst hx
      rw [hd] at hd'
      cases hd'
      have hdc : (r.demand path x).isComposite = false := by rw [hd]; rfl
      have hitem : item ∈ (r.demand path x).children := by
        rw [hd]
        exact List.mem_cons_self
      have hadmits : r.Admits path P [] v := ⟨hv, fun _ _ u hu => by cases hu⟩
      obtain ⟨hs₁, y, hy, hl⟩ := hw.standing hP rfl ((hs.standing path).push hadmits hin' hdc)
        (Standing.admits hP (hv x hin) hitem)
      have hnone : s₁.types.lookup (r.keyOf path x) = none :=
        hw.lookup_of_mem_pending List.mem_cons_self hlookup
      -- From the schema below on, everything on the cycle is remembered.
      have hall : ∀ key, Relation.ReflTransGen (r.Link path) y.node.key key →
          ∃ i, s₁.types.lookup ⟨r.scopeOf path, key⟩ = some i := by
        intro key hkey
        induction hkey with
        | refl => exact ⟨_, hl⟩
        | tail _ hlink ih =>
            obtain ⟨i, hi⟩ := ih
            refine hs₁.lookup_of_link hP hlink hi fun u hu hc => ?_
            rw [List.mem_singleton.mp hu, hdc] at hc
            cases hc
      obtain ⟨key, hlink, hrest⟩ := Relation.TransGen.head'_iff.mp hcycle
      obtain ⟨a, b, ha, hab, hakey, rfl⟩ := hlink
      obtain ⟨b', ⟨c, hc, hb'⟩, hkey'⟩ := hab.of_key_eq ha (hP.proper x (hv x hin)) hakey
      rw [hd] at hc
      rw [List.mem_singleton.mp hc] at hb'
      rw [show r.enter item.visit = .ok y from hy] at hb'
      cases hb'
      obtain ⟨i, hi⟩ := hall x.node.key (hkey' ▸ hrest)
      rw [keyOf_eq, hi] at hnone
      cases hnone

/-- A schema around another one comes after it in the store. -/
theorem Settled.lookup_of_around (hs : r.Settled P s) (hP : r.Ranges path P)
    {key key' : SchemaKey} (haround : r.Around path key key') {id : Nat}
    (hl : s.types.lookup ⟨r.scopeOf path, key⟩ = some id) :
    ∃ id', s.types.lookup ⟨r.scopeOf path, key'⟩ = some id' ∧ id' < id := by
  obtain ⟨y, hy⟩ := hs.known _ _ hl
  obtain ⟨v, w, hv, hwrapper, hlead, rfl, rfl⟩ := haround
  have hyp : y.Proper r.description := hP.proper y hy.holds
  have hsame : v.node.key = y.node.key := (congrArg MemoKey.schema hy.key_eq).symm
  obtain ⟨item, shape, hdemand⟩ := hwrapper.of_key_eq hv hyp hsame
  obtain ⟨w', ⟨c, hc, hin⟩, hw'⟩ := hlead.of_key_eq hv hyp hsame
  rw [hdemand] at hc
  rw [List.mem_singleton.mp hc] at hin
  rw [← demand_scope] at hdemand
  obtain ⟨itemId, ⟨x, hx, hlx⟩, hlt, _⟩ := hy.meets.of_wrapper hdemand
  rw [hx] at hin
  cases hin
  refine ⟨itemId, ?_, hlt⟩
  rw [← hw']
  rw [keyOf_eq, scopeOf_scopeOf] at hlx
  exact hlx

/-- **No schema is remembered that lies on a cycle of schemas around one other schema alone.** -/
theorem Settled.lookup_of_onBareCycle (hs : r.Settled P s) (hP : r.Ranges path P)
    (hcycle : r.OnBareCycle path v) : s.types.lookup (r.keyOf path v) = none := by
  cases hl : s.types.lookup (r.keyOf path v) with
  | none => rfl
  | some id =>
      have hall : ∀ key, Relation.TransGen (r.Around path) v.node.key key →
          ∃ id', s.types.lookup ⟨r.scopeOf path, key⟩ = some id' ∧ id' < id := by
        intro key hkey
        induction hkey with
        | single haround => exact hs.lookup_of_around hP haround hl
        | tail _ haround ih =>
            obtain ⟨id₁, hl₁, hlt₁⟩ := ih
            obtain ⟨id₂, hl₂, hlt₂⟩ := hs.lookup_of_around hP haround hl₁
            exact ⟨id₂, hl₂, Nat.lt_trans hlt₂ hlt₁⟩
      obtain ⟨id', hl', hlt⟩ := hall v.node.key hcycle
      have hsame : some id = some id' := hl.symm.trans hl'
      rw [Option.some.inj hsame] at hlt
      exact absurd hlt (Nat.lt_irrefl _)

/-! ## Where a request fails with a cycle -/

/-- Where a request or a run fails with a cycle: at a reference from which references come back, or
at a schema on a cycle at which a walk may enter it. -/
def CycleAt (r : Resolver) (location : String) : Prop :=
  (∃ n reference, r.description.Loops n reference ∧ location = n.key.text) ∨
  ∃ path v, r.Entry path v ∧ r.OnCycle path v ∧ location = v.node.key.text

/-- A call that fails with a cycle. -/
theorem Fails.cycle {c : Call} {location : String}
    (h : r.Fails path (Visit.Proper r.description) [] c (.cyclicReference location)) :
    (∃ n reference, r.description.Loops n reference ∧ location = n.key.text) ∨
    ∃ v, v.Proper r.description ∧ r.IsWrapper path v ∧ r.OnCycle path v ∧
      location = v.node.key.text ∧
      (v.isNamed = true ∨ ∃ x ∈ c.visits, ∃ u, r.enter x = .ok u ∧ u.node.key = v.node.key) := by
  cases h with
  | strayed _ he =>
      obtain ⟨m, reference, hloops, htext, _⟩ := cycle_of_enter he
      exact Or.inl ⟨m, reference, hloops, htext⟩
  | fault _ _ hd => exact absurd (plain_of_demand hd) id
  | @cyclic v hv hwrapper hcycle hfoot =>
      refine Or.inr ⟨v, hv, hwrapper, hcycle, rfl, hfoot.imp_right ?_⟩
      rintro ⟨u, hlast | ⟨_, x, hx, hin⟩, hkey⟩
      · cases hlast
      · exact ⟨x, hx, u, hin, hkey⟩

/-- Nothing leads to a schema without a name that is in no other schema. -/
theorem not_onCycle_of_isRoot (hd : r.description.Tidy) {n : SchemaNode}
    (hn : r.description.IsRoot n) (hv : v.Proper r.description) (hkey : n.key = v.node.key)
    (hnamed : v.isNamed = false) : ¬ r.OnCycle path v := by
  intro hcycle
  obtain ⟨key, _, a, b, ha, hab, _, hb⟩ := Relation.TransGen.tail'_iff.mp hcycle
  have hbNamed : b.isNamed = false := by
    rw [((hab.proper hd ha).eq_of_key_eq hv hb).2.1]
    exact hnamed
  obtain ⟨l, hl⟩ := SchemaNode.child?_of_mem_children (ha.inPlace.tidy hd)
    (hab.mem_children hbNamed)
  exact hn.key_ne_child ha.inPlace hl (hkey.trans hb.symm)

end Resolver

open Resolver in
/-- **A request fails with a cycle only where there is one.** -/
theorem Answered.cycleAt {r : Resolver} (hd : r.description.Tidy) {q : Request}
    {s s' : WalkState} {location : String}
    (h : Answered r q s (.error (.cyclicReference location)) s') (hq : q.Proper r.description)
    (hs : r.Settled (Visit.Proper r.description) s) : r.CycleAt location := by
  have hv : q.visit.Proper r.description := hq.visit hd
  have hcall : ∀ {path : Option String} {depth : Nat} {x : Visit}, x.Proper r.description →
      Walked r path depth (.one x) s (.error (.cyclicReference location)) s' →
      (∃ n reference, r.description.Loops n reference ∧ location = n.key.text) ∨
      ∃ v, v.Proper r.description ∧ r.IsWrapper path v ∧ r.OnCycle path v ∧
        location = v.node.key.text ∧
        (v.isNamed = true ∨ ∃ u, r.enter x = .ok u ∧ u.node.key = v.node.key) := by
    intro path depth x hx hw
    refine (hs.fails hd hx hw).cycle.imp_right ?_
    rintro ⟨v, hvp, hwrapper, hcycle, htext, hfoot⟩
    refine ⟨v, hvp, hwrapper, hcycle, htext, hfoot.imp_right ?_⟩
    rintro ⟨y, hy, u, hu⟩
    rw [List.mem_singleton.mp hy] at hu
    exact ⟨u, hu⟩
  cases h with
  | @componentFails n name s s' e h =>
      refine (hcall hv h).imp_right ?_
      rintro ⟨v, hvp, hwrapper, hcycle, htext, hfoot⟩
      refine ⟨none, v, ⟨hvp, hwrapper, Or.inl ?_⟩, hcycle, htext⟩
      rcases hfoot with hnamed | ⟨u, hu, hkey⟩
      · exact hnamed
      · rw [← ((proper_of_enter hv hu).eq_of_key_eq hvp hkey).2.1]
        rcases enter_cases hu with ⟨_, rfl⟩ | ⟨hnamed, _⟩
        · rfl
        · exact hnamed
  | strayed hin =>
      obtain ⟨m, reference, hloops, htext, _⟩ := cycle_of_enter hin
      exact Or.inl ⟨m, reference, hloops, htext⟩
  | @sharedFails path use n name w s s' e hin hdemand h =>
      have hw : w.Proper r.description := proper_of_enter hv hin
      refine (hcall hw h).imp_right ?_
      rintro ⟨v, hvp, hwrapper, hcycle, htext, hfoot⟩
      refine ⟨path, v, ⟨hvp, hwrapper, Or.inl ?_⟩, hcycle, htext⟩
      rcases hfoot with hnamed | ⟨u, hu, hkey⟩
      · exact hnamed
      · rw [enter_enter hin] at hu
        cases hu
        cases hnamed : v.isNamed with
        | true => rfl
        | false =>
            have hwNamed : w.isNamed = false := by
              rw [(hw.eq_of_key_eq hvp hkey).2.1]
              exact hnamed
            rcases enter_cases hin with ⟨_, rfl⟩ | ⟨hwn, _⟩
            · exact absurd hcycle (not_onCycle_of_isRoot hd hq.isRoot hvp hkey hnamed)
            · rw [hwNamed] at hwn
              cases hwn
  | fault hin hdemand => exact absurd (plain_of_useDemand hdemand) id
  | @wrapperFails path use n name w s s₁ item shape e hin hdemand h =>
      have hw : w.Proper r.description := proper_of_enter hv hin
      have hitem : item.node ∈ w.node.children :=
        SchemaNode.mem_children_items (node_mem_of_useDemand hdemand List.mem_cons_self)
      have hx : item.visit.Proper r.description := hw.child hd hitem
      refine (hcall hx h).imp_right ?_
      rintro ⟨v, hvp, hwrapper, hcycle, htext, hfoot⟩
      refine ⟨path, v, ⟨hvp, hwrapper, ?_⟩, hcycle, htext⟩
      rcases hfoot with hnamed | ⟨u, hu, hkey⟩
      · exact Or.inl hnamed
      · rcases enter_cases hu with ⟨_, rfl⟩ | ⟨hnamed, _⟩
        · refine Or.inr ⟨use, w, item, shape, hdemand, ?_⟩
          exact hvp.inPlace.eq_of_key_eq hx.inPlace hkey.symm
        · refine Or.inl ?_
          rw [← ((proper_of_enter hx hu).eq_of_key_eq hvp hkey).2.1]
          exact hnamed

/-! ## Runs -/

namespace Resolver

variable {r : Resolver} {s s' : WalkState}

/-- Of requests of which one fails, those before it keep what every request keeps. -/
theorem answered_of_askAll_error {I : WalkState → Prop} {qs : List Request} {e : Error}
    (hstep : ∀ q ∈ qs, ∀ s told s', Answered r q s (.ok told) s' → I s → I s')
    (h : (r.askAll qs).outcome s = (.error e, s')) (hs : I s) :
    ∃ q ∈ qs, ∃ s₁, I s₁ ∧ Answered r q s₁ (.error e) s' := by
  induction qs generalizing s with
  | nil => cases h
  | cons q rest ih =>
      have hq := answered_ask (r := r) q s
      rw [askAll, Walk.outcome_bind] at h
      cases ho : (r.ask q).outcome s with
      | mk result s₁ =>
          rw [ho] at h hq
          cases result with
          | error e' =>
              cases h
              exact ⟨q, List.mem_cons_self, s, hs, hq⟩
          | ok told =>
              obtain ⟨q', hq', s₂, hs₂, hans⟩ :=
                ih (fun q' hq' => hstep q' (List.mem_cons_of_mem _ hq')) h
                  (hstep q List.mem_cons_self s told s₁ hq hs)
              exact ⟨q', List.mem_cons_of_mem _ hq', s₂, hs₂, hans⟩

/-- A run that fails fails at a request, unless the operations are not known. -/
theorem answered_of_run_error (hd : r.description.Tidy) {e : Error} (h : r.run = .error e) :
    r.description.FailsWith e ∨
    ∃ q s s', r.Asks q ∧ r.Settled (Visit.Proper r.description) s ∧ Answered r q s (.error e) s' := by
  have hkeeps : ∀ q, r.Asks q → ∀ s told s', Answered r q s (.ok told) s' →
      r.Settled (Visit.Proper r.description) s → r.Settled (Visit.Proper r.description) s' :=
    fun q hq s told s' hans hs => hans.settled hd (hq.proper hd) hs
  rcases fails_of_run h with ⟨s, hask⟩ | hes | ⟨es, s₁, s, hask, hes, hask'⟩
  · obtain ⟨q, hq, s₁, hs₁, hans⟩ := answered_of_askAll_error (fun q hq => hkeeps q (Or.inl hq))
      hask (Settled.empty r _)
    exact Or.inr ⟨q, s₁, s, Or.inl hq, hs₁, hans⟩
  · exact Or.inl (Description.failsWith_of_endpoints hd hes)
  · have hs₁ := askAll_invariant (fun q hq => hkeeps q (Or.inl hq)) hask (Settled.empty r _)
    obtain ⟨q, hq, s₂, hs₂, hans⟩ := answered_of_askAll_error
      (fun q hq => hkeeps q (Or.inr ⟨es, hes, hq⟩)) hask' hs₁
    exact Or.inr ⟨q, s₂, s, Or.inr ⟨es, hes, hq⟩, hs₂, hans⟩

/-- **A run fails with a cycle only where there is one.** -/
theorem cycleAt_of_run (hd : r.description.Tidy) {location : String}
    (h : r.run = .error (.cyclicReference location)) : r.CycleAt location := by
  rcases answered_of_run_error hd h with hfails | ⟨q, s, s', hq, hs, hans⟩
  · cases hfails
  · exact hans.cycleAt hd (hq.proper hd) hs

/-- A run does not get too deep. -/
theorem run_ne_tooDeep (hd : r.description.Tidy) (text : String) :
    ¬ r.run = .error (.tooDeep text) := by
  intro h
  rcases answered_of_run_error hd h with hfails | ⟨q, s, s', hq, hs, hans⟩
  · cases hfails
  · exact hans.ne_tooDeep text rfl

/-- **A run fails whose first component lies on a cycle and reserves no slot.** -/
theorem run_fails_of_onCycle (hd : r.description.Tidy) {name : String} {n : SchemaNode}
    {rest : List (String × SchemaNode)} (hfirst : r.description.components = (name, n) :: rest)
    (hn : n.reference? = none) (hwrapper : r.IsWrapper none ⟨n, name, true⟩)
    (hcycle : r.OnCycle none ⟨n, name, true⟩) :
    ∃ e, r.run = .error e ∧ (e.Plain ∨ ∃ location, e = .cyclicReference location) := by
  have hmem : (name, n) ∈ r.description.components := by
    rw [hfirst]
    exact List.mem_cons_self
  cases hrun : r.run with
  | ok api =>
      obtain ⟨es, s₁, s, hserves, _⟩ := serves_of_run hrun
      have hask := hserves.components
      rw [hfirst, componentRequests, List.map_cons] at hask
      obtain ⟨told, s₂, hans, _⟩ := answered_of_askAll_cons hask
      have hv := Visit.proper_component hd hmem
      cases hans with
      | component hw =>
          exact absurd hcycle ((Settled.empty r _).not_onCycle (ranges_proper hd none) hw
            (fun w hin => proper_of_enter hv hin) (enter_of_reference?_eq_none hn) rfl hwrapper)
  | error e =>
      refine ⟨e, rfl, ?_⟩
      cases e with
      | cyclicReference location => exact Or.inr ⟨location, rfl⟩
      | tooDeep text => exact absurd hrun (run_ne_tooDeep hd text)
      | _ => exact Or.inl trivial

end Resolver

/-- **When a run fails with a cycle.** It does so only at a reference from which references come
back, or at a schema that reserves no slot, lies on a cycle of demands and is a component or the
items for a use. Where all such schemas lie on cycles of none but schemas that reserve no slot, the
cycle is one of these. And a schema on a cycle that reserves no slot makes the run fail if it is the
first component, whatever else is on the cycle. -/
theorem cyclicReference_of_resolveText {text : String} {options : Options} {d : Description}
    (hload : Description.load text = .ok d) :
    (∀ location, resolveText text options = .error (.cyclicReference location) →
      (Resolver.mk d options).CycleAt location) ∧
    ((∀ path v, (Resolver.mk d options).Entry path v → (Resolver.mk d options).OnCycle path v →
        (Resolver.mk d options).OnBareCycle path v) →
      ∀ location, resolveText text options = .error (.cyclicReference location) →
        (∃ n reference, d.Loops n reference ∧ location = n.key.text) ∨
        ∃ path v, (Resolver.mk d options).Entry path v ∧
          (Resolver.mk d options).OnBareCycle path v ∧ location = v.node.key.text) ∧
    (∀ name n rest, d.components = (name, n) :: rest → n.reference? = none →
      (Resolver.mk d options).IsWrapper none ⟨n, name, true⟩ →
      (Resolver.mk d options).OnCycle none ⟨n, name, true⟩ →
      ∃ e, resolveText text options = .error e ∧
        (e.Plain ∨ ∃ location, e = .cyclicReference location)) := by
  have hd : d.Tidy := Description.tidy_of_load hload
  have hrun : resolveText text options = (Resolver.mk d options).run := by
    rw [resolveText, hload]
  rw [hrun]
  refine ⟨fun location h => Resolver.cycleAt_of_run hd h, fun hbare location h => ?_,
    fun name n rest hfirst hn hwrapper hcycle =>
      Resolver.run_fails_of_onCycle hd hfirst hn hwrapper hcycle⟩
  refine (Resolver.cycleAt_of_run hd h).imp_right ?_
  rintro ⟨path, v, hentry, hcycle, htext⟩
  exact ⟨path, v, hentry, hbare path v hentry hcycle, htext⟩

/-- A description of a list of nodes that have a list of nodes each, the list first. -/
def listsOfNodes : String :=
  "openapi: 3.0.0\ninfo:\n  title: a\n  version: b\npaths: \x7b\x7d\ncomponents:\n  schemas:\n"
    ++ "    List:\n      type: array\n      items:\n        $ref: '#/components/schemas/Node'\n"
    ++ "    Node:\n      properties:\n        next:\n          $ref: '#/components/schemas/List'\n"

theorem cyclicReference_of_listsOfNodes :
    ∃ d, Description.load listsOfNodes = .ok d ∧
      resolveText listsOfNodes {} = .error (.cyclicReference "#/components/schemas/List") ∧
      (Resolver.mk d {}).CycleAt "#/components/schemas/List" := by
  have hchars : listsOfNodes = String.ofList _ :=
    Text.append_eq_ofList (Text.append_eq_ofList rfl rfl) rfl
  have hrun : resolveText listsOfNodes {}
      = .error (.cyclicReference "#/components/schemas/List") := by
    refine failure?_eq_some_iff.mp ?_
    rw [resolveText, Description.load, Yaml.read?_ofList hchars]
    decide +kernel
  cases hload : Description.load listsOfNodes with
  | error fault =>
      rw [resolveText, hload] at hrun
      cases hrun
  | ok d => exact ⟨d, rfl, hrun, (cyclicReference_of_resolveText hload).1 _ hrun⟩

end ApiTypes
