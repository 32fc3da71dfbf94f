import ApiTypes.Proofs.Walk.Depth
import ApiTypes.Proofs.Walk.Settled

/-!
# The recursion behind the depth

The walk that runs counts the nested calls that are still allowed. Without the count it is a
recursion: a step calls the walk again for the schemas below (`Resolver.Solves`). The count does not
matter, since every depth that allows for the keys that are not being resolved gives the same walk.
So the walk solves the recursion, and nothing else does.

**No call gets deeper than there are schemas in the description** (`Resolver.nesting_bounded`),
whatever was resolved before it and whatever is being resolved.
-/

set_option autoImplicit false

namespace ApiTypes

namespace Resolver

variable {r : Resolver} {path : Option String} {ns : List SchemaNode}

/-! ## Steps that agree below -/

section Congruence

variable {recur recur' : SchemaNode → String → Walk TypeId} {pending : List MemoKey}

/-- Two walks for a schema below end alike while some schemas are being resolved, and these are the
same afterwards. -/
def AgreeOn (recur recur' : SchemaNode → String → Walk TypeId) (pending : List MemoKey)
    (c : Child) : Prop :=
  ∀ t : WalkState, t.pending = pending →
    (recur c.node c.name).outcome t = (recur' c.node c.name).outcome t ∧
    ((recur' c.node c.name).outcome t).2.pending = pending

theorem outcome_resolveEach_congr {cs : List Child} {t : WalkState} (ht : t.pending = pending)
    (h : ∀ c ∈ cs, AgreeOn recur recur' pending c) :
    (resolveEach recur cs).outcome t = (resolveEach recur' cs).outcome t := by
  induction cs generalizing t with
  | nil => rfl
  | cons c rest ih =>
      obtain ⟨heq, hpending⟩ := h c List.mem_cons_self t ht
      rw [outcome_resolveEach_cons, outcome_resolveEach_cons, heq]
      cases ho : (recur' c.node c.name).outcome t with
      | mk result t₁ =>
          rw [ho] at hpending
          cases result with
          | error e => rfl
          | ok id =>
              -- The rest starts with the same schemas being resolved as the first one did.
              have hrest := ih hpending fun c' hc' => h c' (List.mem_cons_of_mem _ hc')
              simp only [hrest]

theorem outcome_meet_congr {key : MemoKey} {demand : Demand} {s : WalkState}
    (h : ∀ c ∈ demand.children, AgreeOn recur recur' (key :: s.pending) c) :
    (meet recur key demand).outcome (s.push key) = (meet recur' key demand).outcome (s.push key) := by
  cases demand with
  | fault e => rfl
  | block inner last => rfl
  | wrapper item shape =>
      rw [outcome_meet_wrapper, outcome_meet_wrapper,
        (h item List.mem_cons_self (s.push key) rfl).1]
  | composite children shape =>
      have heach : (resolveEach recur children).outcome (s.start key)
          = (resolveEach recur' children).outcome (s.start key) :=
        outcome_resolveEach_congr (s.pending_start key) h
      rw [outcome_meet_composite, outcome_meet_composite, heach]

/-- **Steps agree whose walks agree on the schemas that are demanded.** -/
theorem outcome_resolveStep_congr {v : Visit} {s : WalkState}
    (h : ∀ w, r.Enters path v s w → ∀ c ∈ (r.demand path w).children,
      AgreeOn recur recur' (r.keyOf path w :: s.pending) c) :
    (r.resolveStep path recur v.node v.name v.isNamed).outcome s
      = (r.resolveStep path recur' v.node v.name v.isNamed).outcome s := by
  rw [outcome_resolveStep, outcome_resolveStep]
  cases hv : r.enter v with
  | error e => rfl
  | ok w =>
      cases hl : s.types.lookup (r.keyOf path w) with
      | some id => simp only [hl]
      | none =>
          simp only [hl]
          rw [outcome_resolveNew, outcome_resolveNew]
          -- A schema that is being resolved fails at once; else the schema is entered.
          by_cases hp : r.keyOf path w ∈ s.pending
          · rw [if_pos hp, if_pos hp]
          · rw [if_neg hp, if_neg hp, outcome_meet_congr (h w ⟨hv, hl, hp⟩)]

end Congruence

/-! ## The recursion -/

/-- A walk for each schema that calls itself for the schemas below. -/
def Solves (r : Resolver) (path : Option String)
    (f : SchemaNode → String → Bool → Walk TypeId) : Prop :=
  ∀ n name isNamed, f n name isNamed
    = r.resolveStep path (fun below belowName => f below belowName false) n name isNamed

/-- Walks for each depth, those of one depth calling those of the depth before. -/
def Unfolds (r : Resolver) (path : Option String)
    (g : Nat → SchemaNode → String → Bool → Walk TypeId) : Prop :=
  ∀ depth n name isNamed, g (depth + 1) n name isNamed
    = r.resolveStep path (fun below belowName => g depth below belowName false) n name isNamed

theorem unfolds_resolveWithin (r : Resolver) (path : Option String) :
    r.Unfolds path (r.resolveWithin path) :=
  fun _ _ _ _ => rfl

theorem Solves.unfolds {f : SchemaNode → String → Bool → Walk TypeId} (h : r.Solves path f) :
    r.Unfolds path fun _ => f :=
  fun _ => h

/-- **Depths that allow for all keys that are not being resolved give the same walk.** -/
theorem Unfolds.outcome_eq {g : Nat → SchemaNode → String → Bool → Walk TypeId}
    (hg : r.Unfolds path g) (hns : r.description.ComponentsIn ns) {depth : Nat} (depth' : Nat)
    (v : Visit) {s : WalkState} (hv : v.node.nodes ⊆ ns)
    (hdepth : (r.free path ns s.pending).card < depth)
    (hdepth' : (r.free path ns s.pending).card < depth') :
    (g depth v.node v.name v.isNamed).outcome s = (r.resolveVisit path depth' v).outcome s := by
  induction depth generalizing depth' v s with
  | zero => exact absurd hdepth (Nat.not_lt_zero _)
  | succ depth ih =>
      cases depth' with
      | zero => exact absurd hdepth' (Nat.not_lt_zero _)
      | succ depth' =>
          rw [hg, resolveVisit_succ]
          refine outcome_resolveStep_congr fun w hin c hc t ht => ?_
          have hw := nodes_subset_of_enter hns hv hin.enter_eq
          -- The schema itself is being resolved now, so there is one key less.
          have hlt := card_free_lt hw hin.notMem
          rw [← ht] at hlt
          refine ⟨?_, ?_⟩
          · exact ih depth' c.visit (nodes_subset_of_demand hw hc) (by omega) (by omega)
          · rw [← ht]
            exact (@walked_resolveVisit r path depth' c.visit t).pending_eq

/-- Every depth that allows for all schemas gives the walk. -/
theorem outcome_resolveVisit_eq (hns : r.description.ComponentsIn ns) {depth : Nat} (v : Visit)
    {s : WalkState} (hv : v.node.nodes ⊆ ns)
    (hdepth : (r.free path ns s.pending).card < depth) :
    (r.resolveVisit path depth v).outcome s
      = (r.resolve path v.node v.name v.isNamed).outcome s := by
  -- The depth that is given allows for other schemas; some depth allows for both.
  have hlt := r.card_free_lt_depthFor path v.node s.pending
  have hunfolds := r.unfolds_resolveWithin path
  have hboth := hunfolds.outcome_eq hns (depth + r.depthFor v.node) v hv hdepth (by omega)
  have hgiven := hunfolds.outcome_eq (r.description.componentsIn_append v.node.nodes)
    (depth + r.depthFor v.node) v (List.subset_append_right _ _) hlt (by omega)
  exact hboth.trans hgiven.symm

/-- **The walk solves the recursion.** -/
theorem solves_resolve (r : Resolver) (path : Option String) : r.Solves path (r.resolve path) := by
  intro n name isNamed
  refine Walk.ext_outcome fun s => ?_
  show (r.resolveVisit path (r.description.schemaCount + n.schema.count + 1)
    ⟨n, name, isNamed⟩).outcome s = _
  rw [resolveVisit_succ]
  -- The step passes on what is left of its depth, while a walk for a schema below starts afresh.
  refine outcome_resolveStep_congr (v := ⟨n, name, isNamed⟩) fun w hin c hc t ht => ?_
  have hns := r.description.componentsIn_append n.nodes
  have hw := nodes_subset_of_enter hns (List.subset_append_right _ _) hin.enter_eq
  have hlt := card_free_lt hw hin.notMem
  have hgiven := r.card_free_lt_depthFor path n s.pending
  rw [← ht] at hlt
  rw [depthFor] at hgiven
  refine ⟨?_, ?_⟩
  · exact outcome_resolveVisit_eq hns c.visit (nodes_subset_of_demand hw hc) (by omega)
  · rw [← ht]
    exact (@walked_resolveVisit r path (r.depthFor c.node) c.visit t).pending_eq

/-- **Nothing else solves the recursion.** -/
theorem Solves.eq_resolve {f : SchemaNode → String → Bool → Walk TypeId} (h : r.Solves path f) :
    f = r.resolve path := by
  funext n name isNamed
  refine Walk.ext_outcome fun s => ?_
  have hlt := r.card_free_lt_depthFor path n s.pending
  exact h.unfolds.outcome_eq (r.description.componentsIn_append n.nodes)
    (r.depthFor n) ⟨n, name, isNamed⟩ (List.subset_append_right _ _) hlt hlt

theorem solves_iff {f : SchemaNode → String → Bool → Walk TypeId} :
    r.Solves path f ↔ f = r.resolve path := by
  constructor
  · exact Solves.eq_resolve
  · rintro rfl
    exact r.solves_resolve path

/-! ## How deep calls are nested -/

/-- The call that a request begins with: that of a component, or of a use with or without a type of
its own, once references are followed. -/
inductive Begins (r : Resolver) : Request → Option String → Visit → Prop
  | component {n : SchemaNode} {name : String} : Begins r (.component n name) none ⟨n, name, true⟩
  | shared {path : Option String} {use : Use} {n : SchemaNode} {name : String} {w : Visit} :
      r.enter ⟨n, name, false⟩ = .ok w → r.useDemand path use w = none →
      Begins r (.use path use n name) path w
  | item {path : Option String} {use : Use} {n : SchemaNode} {name : String} {w : Visit}
      {item : Child} {shape : ModelType} :
      r.enter ⟨n, name, false⟩ = .ok w → r.useDemand path use w = some (.wrapper item shape) →
      Begins r (.use path use n name) path item.visit

theorem Begins.within {q : Request} {v : Visit} (h : r.Begins q path v)
    (hns : r.description.ComponentsIn ns) (hq : q.visit.node.nodes ⊆ ns) : v.node.nodes ⊆ ns := by
  cases h with
  | component => exact hq
  | shared hin _ => exact nodes_subset_of_enter hns hq hin
  | item hin hdemand =>
      have hitems := node_mem_of_useDemand hdemand List.mem_cons_self
      exact List.Subset.trans
        (SchemaNode.nodes_subset_of_mem_children (SchemaNode.mem_children_items hitems))
        (nodes_subset_of_enter hns hq hin)

/-- A call that is nested in another one, over the schemas that are being resolved in between. -/
structure Nested (r : Resolver) (path : Option String) (s : WalkState) (stack : List MemoKey)
    (u : Visit) (t : WalkState) : Prop where
  /-- These are being resolved, besides what was being resolved before. -/
  pending_eq : t.pending = stack ++ s.pending
  /-- They have different keys. -/
  nodup : stack.Nodup
  /-- None of them was being resolved before. -/
  notMem : ∀ key ∈ stack, key ∉ s.pending
  /-- They are schemas of the description on one scope. -/
  mem_nodeKeys : ∀ key ∈ stack,
    key.scope = r.scopeOf path ∧ key.schema ∈ r.description.nodeKeys
  /-- The nested call is for a schema of the description. -/
  node_mem : u.node ∈ r.description.nodes
  /-- Together with it there is at most one call more than there are schemas. -/
  depth_le : stack.length + 1 ≤ r.description.nodeKeys.card + 1

theorem Descends.nested {v u : Visit} {s t : WalkState} {stack : List MemoKey}
    (h : r.Descends path v s stack u t) (hv : v.node.nodes ⊆ r.description.nodes) :
    r.Nested path s stack u t := by
  have hns := r.description.componentsIn_nodes
  have hle := h.card_le hns hv
  have hfree := r.card_free_le path r.description.nodes s.pending
  rw [← Description.nodeKeys] at hfree
  exact
    { pending_eq := h.pending_eq
      nodup := h.nodup
      notMem := h.notMem_pending
      mem_nodeKeys := h.mem_keysOf hns hv
      node_mem := h.within hns hv u.node.self_mem_nodes
      depth_le := by omega }

/-- **Resolving ends, and calls are nested no deeper than there are schemas.** The walk is the one
solution of its recursion, in which nothing counts the calls. A request for a schema of the
description never gets too deep; its first call ends alike for every depth greater than the number
of schemas, and the calls nested in it resolve different schemas of one scope, so that there are no
more of them than schemas, and one. That holds from every state. And a reference of the description
is followed in at most one round more than there are references. -/
theorem nesting_bounded (r : Resolver) :
    (∀ path f, r.Solves path f ↔ f = r.resolve path) ∧
    (∀ q : Request, q.visit.node ∈ r.description.nodes → ∀ s : WalkState,
      (∀ text, ¬ ((r.ask q).outcome s).1 = .error (.tooDeep text)) ∧
      ∀ path v, r.Begins q path v →
        (∀ depth, r.description.nodeKeys.card < depth →
          (r.resolveVisit path depth v).outcome s
            = (r.resolve path v.node v.name v.isNamed).outcome s) ∧
        (∀ depth text, ((r.resolveVisit path depth v).outcome s).1 = .error (.tooDeep text) →
          ∃ stack u t, r.Descends path v s stack u t ∧ stack.length = depth) ∧
        ∀ stack u t, r.Descends path v s stack u t → r.Nested path s stack u t) ∧
    ∀ n ∈ r.description.nodes, ∀ reference, n.reference? = some reference →
      ∃ rounds, r.description.Rounds [] reference n.key rounds
          (r.description.follow reference n.key) ∧
        rounds ≤ r.description.references.card + 1 := by
  refine ⟨fun path f => solves_iff, fun q hq s => ⟨fun text => ?_, fun path v hbegins => ?_⟩,
    fun n hn reference hr => Description.exists_rounds_of_reference? hn hr⟩
  · exact (answered_ask q s).ne_tooDeep text
  have hns := r.description.componentsIn_nodes
  have hv : v.node.nodes ⊆ r.description.nodes :=
    hbegins.within hns (Description.nodes_subset_of_mem_nodes hq)
  refine ⟨fun depth hdepth => ?_, fun depth text hdeep => ?_, fun stack u t hdescends => ?_⟩
  · have hfree := r.card_free_le path r.description.nodes s.pending
    exact outcome_resolveVisit_eq hns v hv (Nat.lt_of_le_of_lt hfree hdepth)
  · obtain ⟨stack, hbelow, hlen⟩ :=
      exists_descends_of_tooDeep (@walked_resolveVisit r path depth v s) hdeep
    cases hbelow with
    | one hbelow => exact ⟨stack, _, _, hbelow, hlen⟩
  · exact hdescends.nested hv

end Resolver

/-- A person, who has a mother. -/
def personSchema : Schema :=
  .inline {} [] [] [] [("mother", .reference "#/components/schemas/Mother")] none .none

/-- A description of persons, a mother being a person under another name. -/
def personDescription : Description where
  dialect := .early
  version := "3.0.0"
  schemas := [("Mother", .reference "#/components/schemas/Person"), ("Person", personSchema)]

/-- The component of a person. -/
def personNode : SchemaNode := ⟨SchemaKey.component "Person", personSchema⟩

/-- The mother of a person. -/
def motherNode : SchemaNode :=
  ⟨(personNode.key.child "properties").child "mother", .reference "#/components/schemas/Mother"⟩

/-- The mother of a person is resolved while the person is; whatever else is being resolved, no more
than four calls are nested, and it takes no more than three rounds to find out who she is. -/
theorem nested_of_personDescription :
    (∃ stack u t, (Resolver.mk personDescription {}).Descends none ⟨personNode, "Person", true⟩ {}
      stack u t ∧ stack.length = 1) ∧
    (∀ s stack u t, (Resolver.mk personDescription {}).Descends none ⟨personNode, "Person", true⟩ s
      stack u t → stack.Nodup ∧ stack.length + 1 ≤ 4) ∧
    ∃ rounds, personDescription.Rounds [] "#/components/schemas/Mother" motherNode.key rounds
      (personDescription.follow "#/components/schemas/Mother" motherNode.key) ∧ rounds ≤ 3 := by
  have hkeys : personDescription.nodeKeys.card = 3 := by decide +kernel
  have hreferences : personDescription.references.card = 2 := by decide +kernel
  have hperson : personDescription.InPlace personNode :=
    Description.IsRoot.inPlace (Description.root?_component rfl)
  have hmother : personDescription.InPlace motherNode :=
    hperson.child (l := .property "mother") rfl
  obtain ⟨_, hnested, hrounds⟩ := (Resolver.mk personDescription {}).nesting_bounded
  refine ⟨?_, fun s stack u t h => ?_, ?_⟩
  · have henters : (Resolver.mk personDescription {}).Enters none ⟨personNode, "Person", true⟩ {}
        ⟨personNode, "Person", true⟩ := ⟨rfl, rfl, List.not_mem_nil⟩
    have hdemand : ∃ shape, (Resolver.mk personDescription {}).demand none
        ⟨personNode, "Person", true⟩ = .composite ([] ++ [⟨motherNode, "PersonMother"⟩]) shape :=
      ⟨_, rfl⟩
    obtain ⟨shape, hdemand⟩ := hdemand
    exact ⟨_, _, _, .call (.child henters hdemand (@Walked.nil _ _ 0 _)) .here, rfl⟩
  · have hcall := (hnested (.component personNode "Person") hperson.mem_nodes s).2 none _ .component
    have hcalls := hcall.2.2 stack u t h
    have hle : stack.length + 1 ≤ personDescription.nodeKeys.card + 1 := hcalls.depth_le
    rw [hkeys] at hle
    exact ⟨hcalls.nodup, hle⟩
  · obtain ⟨rounds, hfollowed, hle⟩ := hrounds motherNode hmother.mem_nodes _ rfl
    change rounds ≤ personDescription.references.card + 1 at hle
    rw [hreferences] at hle
    exact ⟨rounds, hfollowed, hle⟩

end ApiTypes
