import ApiTypes.Proofs.Walk.Sound

/-!
# Between requests

Between requests nothing is being resolved: everything that is remembered is met, and every slot is
filled (`Resolver.Settled`). Requests that succeed keep this, so it holds at the end of every run
that succeeds (`settled_of_run`).
-/

set_option autoImplicit false

namespace ApiTypes

namespace Resolver

/-- A state in which nothing is being resolved, and everything that is remembered is met. -/
structure Settled (r : Resolver) (P : Visit → Prop) (s : WalkState) : Prop where
  /-- The store refers to slots that are there. -/
  closed : s.types.Closed
  /-- Nothing is being resolved. -/
  pending_eq : s.pending = []
  /-- Everything that is remembered meets its schema. -/
  known : ∀ (key : MemoKey) (id : Nat), s.types.lookup key = some id →
    ∃ v, r.Knows P s.types key id v
  /-- All slots are filled. -/
  filled : ∀ i : Nat, i < s.types.size → (s.types.get? i).isSome = true

variable {r : Resolver} {path : Option String} {P : Visit → Prop} {s s' : WalkState}

/-- What is remembered and not being resolved is remembered with what it leads to. -/
theorem Standing.lookup_of_link {stack : List Visit} (hP : r.Ranges path P)
    (hs : r.Standing path P stack s) {key key' : SchemaKey} (hlink : r.Link path key key')
    {id : Nat} (hl : s.types.lookup ⟨r.scopeOf path, key⟩ = some id)
    (hstack : ∀ u ∈ stack, ¬ (r.demand path u).isComposite = true) :
    ∃ i, s.types.lookup ⟨r.scopeOf path, key'⟩ = some i := by
  obtain ⟨a, b, ha, hab, rfl, rfl⟩ := hlink
  rcases hs.known _ _ hl with ⟨y, hy⟩ | ⟨_, u, hu, _, hc⟩
  · have hkey : a.node.key = y.node.key := (congrArg MemoKey.schema hy.key_eq).symm
    obtain ⟨b', hyb, hb'⟩ := hab.of_key_eq ha (hP.proper y hy.holds) hkey
    have hscope : r.Leads (r.scopeOf path) y b' := by
      rw [leads_scope]
      exact hyb
    obtain ⟨i, hi⟩ := hy.meets.lookup_of_leads hscope
    refine ⟨i, ?_⟩
    rw [keyOf_eq, scopeOf_scopeOf, hb'] at hi
    exact hi
  · exact absurd hc (hstack u hu)

theorem Standing.settled (h : r.Standing path P [] s) : r.Settled P s where
  closed := h.closed
  pending_eq := h.pending_eq
  known key id hk := by
    rcases h.known key id hk with hknown | ⟨_, v, hv, _⟩
    · exact hknown
    · cases hv
  filled i hi := by
    cases hget : s.types.get? i with
    | some t => rfl
    | none =>
        obtain ⟨v, hv, _⟩ := h.filled i hi hget
        cases hv

namespace Settled

theorem standing (h : r.Settled P s) (path : Option String) : r.Standing path P [] s where
  closed := h.closed
  pending_eq := h.pending_eq
  nodup := by rw [h.pending_eq]; exact List.nodup_nil
  holds v hv := by cases hv
  chain := List.IsChain.nil
  open_lookup v hv := by cases hv
  known key id hk := Or.inl (h.known key id hk)
  filled i hi hnone := by
    have := h.filled i hi
    rw [hnone] at this
    cases this

theorem empty (r : Resolver) (P : Visit → Prop) : r.Settled P {} where
  closed := TypeStore.Closed.empty
  pending_eq := rfl
  known key id hk := by cases hk
  filled i hi := absurd hi (Nat.not_lt_zero i)

/-- A call that succeeds between requests. -/
theorem of_walked (h : r.Settled P s) (hP : r.Ranges path P) {depth : Nat} {v : Visit} {id : Nat}
    (hw : Walked r path depth (.one v) s (.ok id) s') (hv : ∀ w, r.enter v = .ok w → P w) :
    r.Settled P s' ∧ ∃ w, r.enter v = .ok w ∧ s'.types.lookup (r.keyOf path w) = some id := by
  obtain ⟨hs', htold⟩ := hw.standing hP rfl (h.standing path)
    ⟨hv, fun w _ u hu => by cases hu⟩
  exact ⟨hs'.settled, htold⟩

/-- Slots are added that nothing is remembered for. -/
theorem of_owned (h : r.Settled P s) {types : TypeStore} (hext : Extends s.types types)
    (hclosed : types.Closed) (hlookup : ∀ key, types.lookup key = s.types.lookup key)
    (hfilled : ∀ i : Nat, i < types.size → ¬ i < s.types.size → (types.get? i).isSome = true) :
    r.Settled P (s.withTypes types) where
  closed := hclosed
  pending_eq := h.pending_eq
  known key id hk := by
    rw [WalkState.types_withTypes, hlookup] at hk
    obtain ⟨v, hv⟩ := h.known key id hk
    exact ⟨v, hv.extends hext⟩
  filled i hi := by
    by_cases hlt : i < s.types.size
    · obtain ⟨t, ht⟩ := Option.isSome_iff_exists.mp (h.filled i hlt)
      rw [WalkState.types_withTypes, hext.get?_eq i t ht]
      rfl
    · exact hfilled i hi hlt

end Settled

theorem ranges_proper (hd : r.description.Tidy) (path : Option String) :
    r.Ranges path (Visit.Proper r.description) where
  proper _ hv := hv
  leads _ _ hv h := h.proper hd hv

end Resolver

/-! ## Requests -/

/-- The visit that a request begins with. -/
def Request.visit : Request → Visit
  | component n name => ⟨n, name, true⟩
  | use _ _ n name => ⟨n, name, false⟩

theorem Request.Proper.visit {d : Description} (hd : d.Tidy) {q : Request} (h : q.Proper d) :
    q.visit.Proper d := by
  cases q with
  | component n name => exact Visit.proper_component hd h
  | use path use n name => exact Visit.proper_use h name

namespace Answered

variable {r : Resolver} {q : Request} {s s' : WalkState} {told : Resolved}

/-- **A request that succeeds leaves everything met.** -/
theorem settled (hd : r.description.Tidy) (h : Answered r q s (.ok told) s')
    (hq : q.Proper r.description) (hs : r.Settled (Visit.Proper r.description) s) :
    r.Settled (Visit.Proper r.description) s' := by
  have hv : q.visit.Proper r.description := hq.visit hd
  have hwhole : ∀ i : Nat, i < s'.types.size → ¬ i < s.types.size →
      (s'.types.get? i).isSome = true :=
    fun i hi hlt => h.filled rfl (Nat.le_of_not_lt hlt) hi
  have hclosed : s'.types.Closed := (h.closed hs.closed).1
  have hext : Extends s.types s'.types := h.grows.extends
  cases h with
  | component h =>
      exact (hs.of_walked (Resolver.ranges_proper hd _) h fun w hw =>
        Resolver.proper_of_enter hv hw).1
  | @shared path use n name w s s' id hin hdemand h =>
      have hw : w.Proper r.description := Resolver.proper_of_enter hv hin
      exact (hs.of_walked (Resolver.ranges_proper hd _) h fun x hx =>
        Resolver.proper_of_enter hw hx).1
  | @block path use n name w s inner last hin hdemand =>
      refine hs.of_owned hext hclosed (fun key => ?_) hwhole
      rw [WalkState.types_withTypes, TypeStore.lookup_annotateAll, TypeStore.lookup_addBlock]
  | @wrapper path use n name w s s₁ item shape id hin hdemand h =>
      have hw : w.Proper r.description := Resolver.proper_of_enter hv hin
      have hitem : item.node ∈ w.node.children := SchemaNode.mem_children_items
        (Resolver.node_mem_of_useDemand hdemand List.mem_cons_self)
      have hs₁ := (hs.of_walked (Resolver.ranges_proper hd _) h fun x hx =>
        Resolver.proper_of_enter (hw.child hd hitem) hx).1
      have hgrows : Grows s₁.types ((s₁.types.add (shape.rename fun _ => id)).2.annotateAll
          s₁.types.size (r.nodeAnnotations path w.node w.features)) :=
        ((Grows.refl s₁.types).add _).annotateAll (Nat.le_refl _) _
      refine hs₁.of_owned hgrows.extends hclosed (fun key => ?_) fun i hi hlt => ?_
      · rw [TypeStore.lookup_annotateAll, WalkState.types_withTypes, TypeStore.lookup_add]
      · refine hwhole i hi fun hlt' => hlt ?_
        exact Nat.lt_of_lt_of_le hlt' h.grows.size_le

end Answered

/-! ## Runs -/

namespace Resolver

variable {r : Resolver} {s s' : WalkState}

/-- Requests are answered one after the other. -/
theorem answered_of_askAll_cons {q : Request} {qs : List Request}
    (h : (r.askAll (q :: qs)).outcome s = (.ok (), s')) :
    ∃ told s₁, Answered r q s (.ok told) s₁ ∧ (r.askAll qs).outcome s₁ = (.ok (), s') := by
  have hq := answered_ask (r := r) q s
  rw [askAll, Walk.outcome_bind] at h
  cases ho : (r.ask q).outcome s with
  | mk result s₁ =>
      rw [ho] at h hq
      cases result with
      | error e => cases h
      | ok told => exact ⟨told, s₁, hq, h⟩

/-- What every request keeps is kept by all of them. -/
theorem askAll_invariant {I : WalkState → Prop} {qs : List Request}
    (hstep : ∀ q ∈ qs, ∀ s told s', Answered r q s (.ok told) s' → I s → I s')
    (h : (r.askAll qs).outcome s = (.ok (), s')) (hs : I s) : I s' := by
  induction qs generalizing s with
  | nil =>
      cases h
      exact hs
  | cons q rest ih =>
      obtain ⟨told, s₁, hq, hrest⟩ := answered_of_askAll_cons h
      exact ih (fun q' hq' => hstep q' (List.mem_cons_of_mem _ hq')) hrest
        (hstep q List.mem_cons_self s told s₁ hq hs)

/-- Requests take slots of their own. -/
theorem grows_of_askAll {qs : List Request} (h : (r.askAll qs).outcome s = (.ok (), s')) :
    Grows s.types s'.types :=
  askAll_invariant (I := fun state => Grows s.types state.types)
    (fun _ _ _ _ _ hans hs => hs.trans hans.grows) h (Grows.refl _)

/-- What every request of a run keeps holds at the end of the run if it succeeds. -/
theorem run_invariant {I : WalkState → Prop} {api : ResolvedApi} (h : r.run = .ok api)
    (hempty : I {})
    (hstep : ∀ q s told s', (r.description.Tidy → q.Proper r.description) →
      Answered r q s (.ok told) s' → I s → I s') :
    ∃ s, I s ∧ api.types = s.types := by
  obtain ⟨es, s₁, s, hserves, htypes⟩ := serves_of_run h
  have hs₁ : I s₁ := askAll_invariant (fun q hq s told s' =>
    hstep q s told s' fun _ => proper_componentRequests hq) hserves.components hempty
  refine ⟨s, ?_, htypes⟩
  exact askAll_invariant (fun q hq s told s' =>
    hstep q s told s' fun hd => proper_endpointsRequests hd hserves.endpoints_eq hq)
    hserves.endpoints hs₁

/-- **At the end of a run that succeeds everything that is remembered is met.** -/
theorem settled_of_run (hd : r.description.Tidy) {api : ResolvedApi} (h : r.run = .ok api) :
    ∃ s, r.Settled (Visit.Proper r.description) s ∧ api.types = s.types :=
  run_invariant h (Settled.empty r _) fun _ _ _ _ hq hans hs => hans.settled hd (hq hd) hs

end Resolver

end ApiTypes
