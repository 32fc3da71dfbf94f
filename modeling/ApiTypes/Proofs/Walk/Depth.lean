import ApiTypes.Proofs.OpenApi.Nodes
import ApiTypes.Proofs.Walk.Faults

/-!
# How deep a walk gets

A call descends to another one over the schemas that are being resolved in between
(`Resolver.Descends`). These all have different keys, none of which was being resolved before, so
that a call gets no deeper than there are keys left that are not being resolved
(`Resolver.Descends.card_le`). A walk that is cut off at its depth has descended as far as that, so
the depth that a walk is given is never used up (`Answered.ne_tooDeep`), from whatever state it
starts.
-/

set_option autoImplicit false

namespace ApiTypes

/-! ## Errors of references -/

/-- An error about references: one leads nowhere, or they lead back to themselves. -/
def Error.OfReference : Error → Prop
  | unresolvableReference _ _ => True
  | cyclicReference _ => True
  | _ => False

theorem Description.ofReference_of_followFrom {d : Description} {budget : Nat}
    {followed : List String} {reference : String} {location : SchemaKey} {e : Error}
    (h : d.followFrom budget followed reference location = .error e) : e.OfReference := by
  induction budget generalizing followed reference location with
  | zero =>
      cases h
      trivial
  | succ budget ih =>
      rw [followFrom] at h
      split at h
      · cases h
        trivial
      · split at h
        · cases h
          trivial
        · split at h
          · exact ih h
          · cases h

/-- Entering fails only because of references. -/
theorem Resolver.ofReference_of_enter {r : Resolver} {v : Visit} {e : Error}
    (h : r.enter v = .error e) : e.OfReference := by
  obtain ⟨reference, _, hf⟩ := exists_follow_of_enter h
  exact Description.ofReference_of_followFrom hf

theorem Resolver.ne_tooDeep_of_enter {r : Resolver} {v : Visit} (text : String) :
    ¬ r.enter v = .error (.tooDeep text) :=
  fun h => ofReference_of_enter h

/-! ## What a call may get to -/

/-- All schemas of the components are among some schemas. -/
def Description.ComponentsIn (d : Description) (ns : List SchemaNode) : Prop :=
  ∀ name n, (name, n) ∈ d.components → n.nodes ⊆ ns

theorem Description.componentsIn_nodes (d : Description) : d.ComponentsIn d.nodes :=
  fun _ _ h => nodes_subset_of_mem_components h

theorem Description.componentsIn_append (d : Description) (ns : List SchemaNode) :
    d.ComponentsIn (d.componentNodes ++ ns) := fun _ _ h =>
  List.Subset.trans (nodes_subset_componentNodes h) (List.subset_append_left _ _)

namespace Resolver

variable {r : Resolver} {path : Option String} {v w u : Visit} {s t : WalkState}
  {ns : List SchemaNode} {stack : List MemoKey}

theorem nodes_subset_of_enter (hns : r.description.ComponentsIn ns) (hv : v.node.nodes ⊆ ns)
    (h : r.enter v = .ok w) : w.node.nodes ⊆ ns := by
  rcases enter_cases h with ⟨_, rfl⟩ | ⟨_, hmem, _, _⟩
  · exact hv
  · exact hns _ _ hmem

theorem nodes_subset_of_demand {c : Child} (hv : v.node.nodes ⊆ ns)
    (hc : c ∈ (r.demand path v).children) : c.visit.node.nodes ⊆ ns :=
  List.Subset.trans (SchemaNode.nodes_subset_of_mem_children (node_mem_of_demand hc)) hv

/-- The keys of some schemas that are not being resolved. -/
def free (r : Resolver) (path : Option String) (ns : List SchemaNode) (pending : List MemoKey) :
    Finset SchemaKey :=
  (SchemaNode.keysOf ns).filter fun key => ⟨r.scopeOf path, key⟩ ∉ pending

theorem card_free_le (r : Resolver) (path : Option String) (ns : List SchemaNode)
    (pending : List MemoKey) : (r.free path ns pending).card ≤ (SchemaNode.keysOf ns).card :=
  Finset.card_filter_le _ _

/-- A schema that is being resolved leaves fewer keys. -/
theorem card_free_lt {pending : List MemoKey} (hw : w.node.nodes ⊆ ns)
    (hnew : r.keyOf path w ∉ pending) :
    (r.free path ns (r.keyOf path w :: pending)).card < (r.free path ns pending).card := by
  refine Finset.card_lt_card (Finset.ssubset_iff_of_subset ?_ |>.mpr ⟨w.node.key, ?_, ?_⟩)
  · intro key hkey
    obtain ⟨hmem, hfree⟩ := Finset.mem_filter.mp hkey
    exact Finset.mem_filter.mpr ⟨hmem, fun hin => hfree (List.mem_cons_of_mem _ hin)⟩
  · exact Finset.mem_filter.mpr ⟨SchemaNode.key_mem_keysOf (hw w.node.self_mem_nodes), hnew⟩
  · intro hkey
    exact (Finset.mem_filter.mp hkey).2 List.mem_cons_self

/-! ## Calls below a call -/

/-- A call for a schema in a state that is about a schema which is resolved now, and a call that it
makes for what is demanded, in the state that it makes it in. -/
inductive Calls (r : Resolver) (path : Option String) (v : Visit) (s : WalkState) (w : Visit) :
    Visit → WalkState → Prop
  | item {item : Child} {shape : ModelType} :
      r.Enters path v s w → r.demand path w = .wrapper item shape →
      Calls r path v s w item.visit (s.push (r.keyOf path w))
  | child {s₁ : WalkState} {before rest : List Child} {c : Child} {shape : ModelType}
      {found : List (TypeId × Bool)} {depth : Nat} :
      r.Enters path v s w → r.demand path w = .composite (before ++ c :: rest) shape →
      Walked r path depth (.each before) (s.start (r.keyOf path w)) (.ok found) s₁ →
      Calls r path v s w c.visit s₁

namespace Calls

theorem enters (h : r.Calls path v s w u t) : r.Enters path v s w := by
  cases h with
  | item hin _ => exact hin
  | child hin _ _ => exact hin

/-- While the call is made, the schema is being resolved. -/
theorem pending_eq (h : r.Calls path v s w u t) : t.pending = r.keyOf path w :: s.pending := by
  cases h with
  | item _ _ => rfl
  | child _ _ hbefore => rw [hbefore.pending_eq, WalkState.pending_start]

/-- The call is made for what is demanded. -/
theorem exists_child (h : r.Calls path v s w u t) :
    ∃ c ∈ (r.demand path w).children, u = c.visit := by
  cases h with
  | @item item shape _ hdemand =>
      refine ⟨item, ?_, rfl⟩
      rw [hdemand]
      exact List.mem_cons_self
  | @child s₁ before rest c shape found depth _ hdemand _ =>
      refine ⟨c, ?_, rfl⟩
      rw [hdemand]
      exact List.mem_append_right _ List.mem_cons_self

/-- The schema is among those that the call may get to, and so is what it calls for. -/
theorem within (h : r.Calls path v s w u t) (hns : r.description.ComponentsIn ns)
    (hv : v.node.nodes ⊆ ns) : w.node.nodes ⊆ ns ∧ u.node.nodes ⊆ ns := by
  have hw := nodes_subset_of_enter hns hv h.enters.enter_eq
  obtain ⟨c, hc, rfl⟩ := h.exists_child
  exact ⟨hw, nodes_subset_of_demand hw hc⟩

/-- When the call is made, fewer keys are left. -/
theorem card_free_lt (h : r.Calls path v s w u t) (hw : w.node.nodes ⊆ ns) :
    (r.free path ns t.pending).card < (r.free path ns s.pending).card := by
  rw [h.pending_eq]
  exact Resolver.card_free_lt hw h.enters.notMem

end Calls

/-- A call for a schema in a state gets to another one in a state; the stack is that of the schemas
that are being resolved in between, the innermost one first. -/
inductive Descends (r : Resolver) (path : Option String) :
    Visit → WalkState → List MemoKey → Visit → WalkState → Prop
  | here {v : Visit} {s : WalkState} : Descends r path v s [] v s
  | call {v w c u : Visit} {s s₁ t : WalkState} {stack : List MemoKey} :
      r.Calls path v s w c s₁ → Descends r path c s₁ stack u t →
      Descends r path v s (stack ++ [r.keyOf path w]) u t

namespace Descends

/-- What is being resolved below is the stack, and what was being resolved before. -/
theorem pending_eq (h : r.Descends path v s stack u t) : t.pending = stack ++ s.pending := by
  induction h with
  | here => rfl
  | call hcall _ ih => rw [ih, hcall.pending_eq, List.append_assoc, List.singleton_append]

/-- Of the stack nothing was being resolved before. -/
theorem notMem_pending (h : r.Descends path v s stack u t) : ∀ key ∈ stack, key ∉ s.pending := by
  induction h with
  | here =>
      intro key hkey
      cases hkey
  | call hcall _ ih =>
      intro key hkey
      rcases List.mem_append.mp hkey with hkey | hkey
      · intro hmem
        refine ih key hkey ?_
        rw [hcall.pending_eq]
        exact List.mem_cons_of_mem _ hmem
      · rw [List.mem_singleton.mp hkey]
        exact hcall.enters.notMem

/-- **The schemas that are being resolved have different keys.** -/
theorem nodup (h : r.Descends path v s stack u t) : stack.Nodup := by
  induction h with
  | here => exact List.nodup_nil
  | call hcall hbelow ih =>
      refine List.nodup_append.mpr ⟨ih, List.nodup_singleton _, fun key hkey other hother => ?_⟩
      rintro rfl
      -- The outermost schema is already being resolved when the calls below are made.
      refine hbelow.notMem_pending key hkey ?_
      rw [hcall.pending_eq, List.mem_singleton.mp hother]
      exact List.mem_cons_self

/-- What a call gets to is among the schemas that it may get to. -/
theorem within (hns : r.description.ComponentsIn ns) (hv : v.node.nodes ⊆ ns)
    (h : r.Descends path v s stack u t) : u.node.nodes ⊆ ns := by
  induction h with
  | here => exact hv
  | call hcall _ ih => exact ih (hcall.within hns hv).2

/-- The stack is made of keys of schemas on the scope of the path. -/
theorem mem_keysOf (hns : r.description.ComponentsIn ns) (hv : v.node.nodes ⊆ ns)
    (h : r.Descends path v s stack u t) :
    ∀ key ∈ stack, key.scope = r.scopeOf path ∧ key.schema ∈ SchemaNode.keysOf ns := by
  induction h with
  | here =>
      intro key hkey
      cases hkey
  | @call v w c u s s₁ t stack hcall _ ih =>
      obtain ⟨hw, hc⟩ := hcall.within hns hv
      intro key hkey
      rcases List.mem_append.mp hkey with hkey | hkey
      · exact ih hc key hkey
      · rw [List.mem_singleton.mp hkey]
        exact ⟨rfl, SchemaNode.key_mem_keysOf (hw w.node.self_mem_nodes)⟩

/-- **A call gets no deeper than there are keys that are not being resolved.** -/
theorem card_le (hns : r.description.ComponentsIn ns) (hv : v.node.nodes ⊆ ns)
    (h : r.Descends path v s stack u t) :
    stack.length + (r.free path ns t.pending).card ≤ (r.free path ns s.pending).card := by
  induction h with
  | here => rw [List.length_nil, Nat.zero_add]
  | call hcall _ ih =>
      obtain ⟨hw, hc⟩ := hcall.within hns hv
      have hlt := hcall.card_free_lt hw
      have hle := ih hc
      rw [List.length_append, List.length_singleton]
      omega

end Descends

/-- A call at a depth descends: for one schema from that schema, for several ones from one of them,
those before it being resolved. -/
inductive DescendsIn (r : Resolver) (path : Option String) (depth : Nat) :
    Call → WalkState → List MemoKey → Prop
  | one {v u : Visit} {s t : WalkState} {stack : List MemoKey} :
      r.Descends path v s stack u t → DescendsIn r path depth (.one v) s stack
  | each {c : Child} {u : Visit} {s s₁ t : WalkState} {found : List (TypeId × Bool)}
      {stack : List MemoKey} (before rest : List Child) :
      Walked r path depth (.each before) s (.ok found) s₁ →
      r.Descends path c.visit s₁ stack u t →
      DescendsIn r path depth (.each (before ++ c :: rest)) s stack

/-- **A walk that is cut off has descended as far as it may.** -/
theorem exists_descends_of_tooDeep {depth : Nat} {c : Call} {s' : WalkState}
    {out : Except Error c.Out} (h : Walked r path depth c s out s') {text : String}
    (hout : out = .error (.tooDeep text)) :
    ∃ stack, r.DescendsIn path depth c s stack ∧ stack.length = depth := by
  induction h with
  | deep => exact ⟨[], .one .here, rfl⟩
  | strayed hv =>
      cases hout
      exact absurd hv (ne_tooDeep_of_enter text)
  | found hv hl => cases hout
  | cyclic hv hl hp => cases hout
  | fault hin hd =>
      cases hout
      exact absurd (plain_of_demand hd) id
  | block hin hd => cases hout
  | wrapperFails hin hd _ ih =>
      cases hout
      obtain ⟨stack, hbelow, hlen⟩ := ih rfl
      cases hbelow with
      | one hbelow =>
          exact ⟨_, .one (.call (.item hin hd) hbelow), by rw [List.length_append, hlen]; rfl⟩
  | wrapper hin hd _ ih => cases hout
  | compositeFails hin hd _ ih =>
      cases hout
      obtain ⟨stack, hbelow, hlen⟩ := ih rfl
      cases hbelow with
      | each before rest hbefore hbelow =>
          refine ⟨_, .one (.call (.child hin hd hbefore) hbelow), ?_⟩
          rw [List.length_append, hlen]
          rfl
  | composite hin hd _ ih => cases hout
  | nil => cases hout
  | @headFails depth c rest s s₁ e _ ih =>
      cases hout
      obtain ⟨stack, hbelow, hlen⟩ := ih rfl
      cases hbelow with
      | one hbelow => exact ⟨stack, .each [] rest .nil hbelow, hlen⟩
  | @tailFails depth c rest s s₁ s₂ e id h₁ _ ih₁ ih₂ =>
      cases hout
      obtain ⟨stack, hbelow, hlen⟩ := ih₂ rfl
      cases hbelow with
      | each before rest hbefore hbelow =>
          -- The first schema is one more of those that are resolved before it.
          exact ⟨stack, .each (c :: before) rest (.cons h₁ hbefore) hbelow, hlen⟩
  | cons _ _ ih₁ ih₂ => cases hout

end Resolver

/-- **A call whose depth allows for all keys that are not being resolved does not get too deep.** -/
theorem Walked.ne_tooDeep {r : Resolver} {path : Option String} {depth : Nat} {v : Visit}
    {s s' : WalkState} {out : Except Error TypeId}
    (h : Walked r path depth (.one v) s out s') {ns : List SchemaNode}
    (hns : r.description.ComponentsIn ns) (hv : v.node.nodes ⊆ ns)
    (hdepth : (r.free path ns s.pending).card < depth) (text : String) :
    ¬ out = .error (.tooDeep text) := by
  intro hout
  obtain ⟨stack, hbelow, hlen⟩ := Resolver.exists_descends_of_tooDeep h hout
  cases hbelow with
  | one hbelow =>
      have hle := hbelow.card_le hns hv
      omega

namespace Resolver

/-- The depth that a call is given allows for all keys. -/
theorem card_free_lt_depthFor (r : Resolver) (path : Option String) (n : SchemaNode)
    (pending : List MemoKey) :
    (r.free path (r.description.componentNodes ++ n.nodes) pending).card < r.depthFor n := by
  have hfree := r.card_free_le path (r.description.componentNodes ++ n.nodes) pending
  have hkeys := SchemaNode.card_keysOf_le (r.description.componentNodes ++ n.nodes)
  rw [List.length_append, Description.length_componentNodes, SchemaNode.length_nodes] at hkeys
  rw [depthFor]
  omega

end Resolver

/-- **A request does not get too deep.** -/
theorem Answered.ne_tooDeep {r : Resolver} {q : Request} {s s' : WalkState}
    {out : Except Error Resolved} (h : Answered r q s out s') (text : String) :
    ¬ out = .error (.tooDeep text) := by
  have hcall : ∀ {path : Option String} {v : Visit} {e : Error},
      Walked r path (r.depthFor v.node) (.one v) s (.error e) s' → ¬ e = .tooDeep text := by
    intro path v e hw he
    exact hw.ne_tooDeep (r.description.componentsIn_append v.node.nodes)
      (List.subset_append_right _ _) (r.card_free_lt_depthFor path v.node s.pending) text
      (congrArg _ he)
  intro hout
  cases h with
  | component h => cases hout
  | @componentFails n name s s' e h =>
      cases hout
      exact hcall (v := ⟨n, name, true⟩) h rfl
  | strayed hv =>
      cases hout
      exact Resolver.ne_tooDeep_of_enter text hv
  | shared hv hd h => cases hout
  | sharedFails hv hd h =>
      cases hout
      exact hcall h rfl
  | fault hv hd =>
      cases hout
      exact Resolver.plain_of_useDemand hd
  | block hv hd => cases hout
  | wrapper hv hd h => cases hout
  | @wrapperFails path use n name w s s₁ item shape e hv hd h =>
      cases hout
      exact hcall (v := item.visit) h rfl

end ApiTypes
