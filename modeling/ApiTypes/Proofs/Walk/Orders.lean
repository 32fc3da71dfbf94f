import ApiTypes.Proofs.Document.Characters
import ApiTypes.Proofs.Document.Equality
import ApiTypes.Proofs.OpenApi.Reordered
import ApiTypes.Proofs.Walk.Knots
import ApiTypes.Proofs.Walk.Lockstep

/-!
# Runs over components in two orders

A run resolves the components in their order and then the operations
(`Resolver.run_eq_runInOrder`). If it succeeds in two orders, the slots of the two results can be
matched: components have matched slots, and types and annotations are the same in matched slots
(`Resolver.matched_of_runInOrder`). If it succeeds in one order alone, it fails in the other one
with a cycle at a component that ties a knot (`Resolver.knot_of_runInOrder`).
-/

set_option autoImplicit false

namespace ApiTypes

namespace Resolver

variable {r : Resolver} {s s' : WalkState}

/-! ## Runs in an order -/

/-- A run that resolves components in the order of a list. -/
def runInOrder (r : Resolver) (components : List (String × SchemaNode)) :
    Except Error ResolvedApi :=
  match (r.resolveComponents components).outcome {} with
  | (.error e, _) => .error e
  | (.ok models, s₁) =>
      match r.description.endpoints with
      | .error e => .error e
      | .ok es =>
          match (r.resolveEndpoints es).outcome s₁ with
          | (.error e, _) => .error e
          | (.ok endpoints, s) => .ok ⟨s.types, models, endpoints⟩

/-- A run resolves the components in their order. -/
theorem run_eq_runInOrder : r.run = r.runInOrder r.description.components := by
  rw [run_eq, runInOrder, resolveAll, Walk.outcome_bind]
  cases (r.resolveComponents r.description.components).outcome {} with
  | mk told s₁ =>
      cases told with
      | error e => rfl
      | ok models =>
          simp only [Walk.outcome_bind, Walk.outcome_ofExcept]
          cases r.description.endpoints with
          | error e => rfl
          | ok es =>
              simp only
              cases (r.resolveEndpoints es).outcome s₁ with
              | mk told s =>
                  cases told with
                  | error e => rfl
                  | ok endpoints => rfl

/-- A run with reordered components is one in another order. -/
theorem run_eq_of_reordered {d d' : Description} (hd : d.Tidy) (h : d.Reordered d')
    (options : Options) :
    (Resolver.mk d' options).run = (Resolver.mk d options).runInOrder d'.components := by
  rw [run_eq_runInOrder, runInOrder, runInOrder]
  simp only [(h.sameReferences hd).resolveComponents_eq, (h.sameReferences hd).resolveEndpoints_eq,
    h.endpoints_eq]

/-- The parts of a run that succeeds. -/
theorem parts_of_runInOrder {components : List (String × SchemaNode)} {api : ResolvedApi}
    (h : r.runInOrder components = .ok api) :
    ∃ es s₁ s, (r.resolveComponents components).outcome {} = (.ok api.models, s₁) ∧
      r.description.endpoints = .ok es ∧
      (r.resolveEndpoints es).outcome s₁ = (.ok api.endpoints, s) ∧ api.types = s.types := by
  unfold runInOrder at h
  cases hc : (r.resolveComponents components).outcome {} with
  | mk told s₁ =>
      rw [hc] at h
      cases told with
      | error e => cases h
      | ok models =>
          simp only at h
          cases hes : r.description.endpoints with
          | error e =>
              rw [hes] at h
              cases h
          | ok es =>
              rw [hes] at h
              simp only at h
              cases ho : (r.resolveEndpoints es).outcome s₁ with
              | mk told s =>
                  rw [ho] at h
                  cases told with
                  | error e => cases h
                  | ok endpoints =>
                      cases h
                      exact ⟨es, s₁, s, rfl, rfl, ho, rfl⟩

/-- The parts of a run that succeeds: the components, then the operations. -/
theorem parts_of_run {api : ResolvedApi} (h : r.run = .ok api) :
    ∃ es s₁ s, (r.resolveComponents r.description.components).outcome {} = (.ok api.models, s₁) ∧
      r.description.endpoints = .ok es ∧
      (r.resolveEndpoints es).outcome s₁ = (.ok api.endpoints, s) ∧ api.types = s.types := by
  rw [run_eq_runInOrder] at h
  exact parts_of_runInOrder h

/-- A run fails that does not resolve the components. -/
theorem run_of_resolveComponents_error {e : Error}
    (h : (r.resolveComponents r.description.components).outcome {} = (.error e, s)) :
    r.run = .error e := by
  rw [run_eq_runInOrder, runInOrder, h]

/-! ## Slots of two orders -/

theorem Tile.lt_size {types : TypeStore} (hclosed : types.Closed) {path : Option String}
    {key : MemoKey} {back i : Nat} (h : r.Tile path types key back i) : i < types.size :=
  Nat.lt_of_le_of_lt (Nat.le_add_right i back) (hclosed.lookup_lt _ _ h.lookup_eq)

/-- The matching of two orders goes on in order. -/
theorem exists_renames (hd : r.description.Tidy) (h : r.Complete s) (h' : r.Complete s') :
    ∃ σ, Renames σ s.types.size s'.types.size ∧ r.Matching σ s.types s'.types := by
  obtain ⟨σ, hσ⟩ := exists_matching hd h h'
  have hbefore : ∀ i, i < s.types.size → σ i < s'.types.size := fun i hi => hσ.lt_size h h' hi
  refine ⟨fun i => if i < s.types.size then σ i else s'.types.size + (i - s.types.size),
    ⟨fun i j hij => ?_, fun i hi => ?_, fun i hi => ?_⟩, fun key back i htile => ?_⟩
  · by_cases hi : i < s.types.size
    · by_cases hj : j < s.types.size
      · simp only [if_pos hi, if_pos hj] at hij
        exact hσ.injective h h' hi hj hij
      · simp only [if_pos hi, if_neg hj] at hij
        have := hbefore i hi
        omega
    · by_cases hj : j < s.types.size
      · simp only [if_neg hi, if_pos hj] at hij
        have := hbefore j hj
        omega
      · simp only [if_neg hi, if_neg hj] at hij
        omega
  · simp only [if_pos hi]
    exact hbefore i hi
  · simp only [if_neg (Nat.not_lt_of_le hi)]
  · have hi : i < s.types.size := htile.lt_size h.settled.closed
    simp only [if_pos hi]
    exact hσ key back i htile

/-- When all components are resolved in two orders, the states are twins. -/
theorem Matching.twinStates (hd : r.description.Tidy) (h : r.Complete s) (h' : r.Complete s')
    {σ : Nat → Nat} (hσ : r.Matching σ s.types s'.types)
    (hrenames : Renames σ s.types.size s'.types.size) :
    TwinStates σ s.types.size s'.types.size s s' where
  pending_eq := by rw [h.settled.pending_eq, h'.settled.pending_eq]
  types :=
    { le_size := Nat.le_refl _
      size_eq := by rw [Nat.sub_self, Nat.add_zero]
      lookup_eq := hσ.lookup_eq h h'
      annotations_eq := fun i => by
        by_cases hi : i < s.types.size
        · exact hσ.annotations_eq hd h h' hi
        · have hle := Nat.le_of_not_lt hi
          rw [TypeStore.annotations_eq_nil_of_size_le _ hle]
          refine TypeStore.annotations_eq_nil_of_size_le _ ?_
          rw [hrenames.shift i hle]
          exact Nat.le_add_right _ _
      makes_eq := fun i hi => by
        obtain ⟨t, t', ht, ht', hsame⟩ := hσ.types_eq hd h h' hi
        rw [ht, ht']
        rcases hsame with rfl | ⟨_, _, _, _, _, _, _, _, _, rfl, rfl, _⟩
        · exact isConstituent_rename σ t
        · rfl
      get?_eq := fun i hi => by
        rw [TypeStore.get?_eq_none_of_size_le _ hi]
        refine TypeStore.get?_eq_none_of_size_le _ ?_
        rw [hrenames.shift i hi]
        exact Nat.le_add_right _ _ }

/-- Operations take slots of their own. -/
theorem grows_of_resolveEndpoints {es : List Endpoint} {endpoints : List ResolvedEndpoint}
    (h : (r.resolveEndpoints es).outcome s = (.ok endpoints, s')) : Grows s.types s'.types := by
  have hask : (r.askAll (r.endpointsRequests es)).outcome s = (.ok (), s') := by
    rw [← silent_resolveEndpoints, Walk.outcome_silent, h]
  exact grows_of_askAll hask

/-- Composed types stay similar when slots are added. -/
theorem Similar.grows {σ : Nat → Nat} {types types' grown grown' : TypeStore} {t t' : ModelType}
    (h : Similar σ types types' t t') (hgrows : Grows types grown) (hgrows' : Grows types' grown')
    (ht : ∀ j : Nat, j ∈ t.references → j < types.size)
    (ht' : ∀ j : Nat, j ∈ t'.references → j < types'.size) : Similar σ grown grown' t t' := by
  obtain ⟨name, package, items, items', deprecated, rfl, rfl, hitems⟩ := h
  refine ⟨name, package, items, items', deprecated, rfl, rfl, ?_⟩
  have hleft : (items.filter fun i => isConstituent (grown.get? i))
      = items.filter fun i => isConstituent (types.get? i) :=
    List.filter_congr fun i hi => by rw [hgrows.get?_eq i (ht i hi)]
  have hright : (items'.filter fun i => isConstituent (grown'.get? i))
      = items'.filter fun i => isConstituent (types'.get? i) :=
    List.filter_congr fun i hi => by rw [hgrows'.get?_eq i (ht' i hi)]
  rw [hleft, hright]
  exact hitems

end Resolver

/-! ## Results in two orders -/

/-- Two resolved descriptions with matched slots. -/
structure ResolvedApi.Matched (σ : Nat → Nat) (api api' : ResolvedApi) : Prop where
  /-- Different slots are matched with different slots. -/
  injective : Function.Injective σ
  /-- Slots are matched with slots. -/
  lt_size_iff : ∀ i, σ i < api'.types.size ↔ i < api.types.size
  /-- Every slot is matched. -/
  surjective : ∀ i', i' < api'.types.size → ∃ i, i < api.types.size ∧ σ i = i'
  /-- Every component has matched slots. -/
  models_perm : api'.models.Perm (api.models.map fun model => (model.1, σ model.2))
  /-- The operations are the same but for the numbers of slots. -/
  endpoints_eq : api'.endpoints = api.endpoints.map (·.renamed σ)
  /-- The same is remembered. -/
  lookup_eq : ∀ key, api'.types.lookup key = (api.types.lookup key).map σ
  /-- Matched slots have the same annotations. -/
  annotations_eq : ∀ i : Nat, api'.types.annotations (σ i) = api.types.annotations i

/-- The type in a slot is the same in the matched one but for the numbers of slots. -/
def ResolvedApi.SameType (σ : Nat → Nat) (api api' : ResolvedApi) (i : Nat) : Prop :=
  api'.types.get? (σ i) = (api.types.get? i).map (·.rename σ)

namespace Resolver

variable {r : Resolver} {s s' : WalkState}

/-- A slot is that of a composed type one of whose constituents leads back to it. The matched one
has the same type, but may keep other constituents of alternatives. -/
def SimilarType (r : Resolver) (σ : Nat → Nat) (api api' : ResolvedApi) (i : Nat) : Prop :=
  ∃ v t t', r.Reached v ∧ r.TurnsBack v ∧ api.types.lookup (r.keyOf none v) = some i ∧
    api.types.get? i = some t ∧ api'.types.get? (σ i) = some t' ∧
    Similar σ api.types api'.types t t'

/-- Components have matched slots. -/
theorem Matching.slotOf_eq (h : r.Complete s) {σ : Nat → Nat}
    (hσ : r.Matching σ s.types s'.types) {entry : String × SchemaNode}
    (hmem : entry ∈ r.description.components) :
    r.slotOf s'.types entry = σ (r.slotOf s.types entry) := by
  obtain ⟨name, n⟩ := entry
  obtain ⟨w, hin⟩ := h.enters name n hmem
  obtain ⟨id, hl⟩ := h.lookup_some w (Reached.component hmem hin)
  rw [Resolver.slotOf_eq hin hl, Resolver.slotOf_eq hin (hσ.lookup_some h hl)]

/-- **What runs in two orders have in common that succeed.** -/
theorem matched_of_runInOrder (hd : r.description.Tidy)
    {components components' : List (String × SchemaNode)}
    (hperm : components.Perm r.description.components) (hperm' : components'.Perm components)
    {api api' : ResolvedApi} (h : r.runInOrder components = .ok api)
    (h' : r.runInOrder components' = .ok api') :
    ∃ σ, ResolvedApi.Matched σ api api' ∧
      ∀ i, ResolvedApi.SameType σ api api' i ∨ r.SimilarType σ api api' i := by
  obtain ⟨es, s, last, hc, hes, ho, htypes⟩ := parts_of_runInOrder h
  obtain ⟨es', s', last', hc', hes', ho', htypes'⟩ := parts_of_runInOrder h'
  rw [hes] at hes'
  cases hes'
  obtain ⟨hs, hmodels⟩ := complete_of_resolveComponents hd (fun _ => hperm.mem_iff) hc
  obtain ⟨hs', hmodels'⟩ :=
    complete_of_resolveComponents hd (fun _ => (hperm'.trans hperm).mem_iff) hc'
  obtain ⟨σ, hrenames, hσ⟩ := exists_renames hd hs hs'
  obtain ⟨end', hend', htwins⟩ := lockstep_resolveEndpoints (r := r) hrenames es s s' _ last
    (hσ.twinStates hd hs hs' hrenames) ho
  obtain ⟨hendpoints, rfl⟩ := Prod.mk.inj (ho'.symm.trans hend')
  have htwin := htwins.types
  have hgrows := grows_of_resolveEndpoints ho
  have hgrows' := grows_of_resolveEndpoints ho'
  refine ⟨σ, ⟨hrenames.injective, ?_, ?_, ?_, ?_, ?_, ?_⟩, ?_⟩
  · rw [htypes, htypes']
    exact htwin.lt_size_iff hrenames
  · intro i' hi'
    rw [htypes'] at hi'
    rw [htypes]
    by_cases hlt : i' < s'.types.size
    · obtain ⟨i, hi, heq⟩ := hσ.surjective hd hs hs' hlt
      exact ⟨i, Nat.lt_of_lt_of_le hi hgrows.size_le, heq⟩
    · have heq : σ (s.types.size + (i' - s'.types.size)) = i' := by
        rw [hrenames.shift _ (Nat.le_add_right _ _)]
        omega
      refine ⟨_, (htwin.lt_size_iff hrenames _).mp ?_, heq⟩
      rw [heq]
      exact hi'
  · have hslots : (components'.map fun entry => (entry.1, r.slotOf s'.types entry))
        = components'.map fun entry => (entry.1, σ (r.slotOf s.types entry)) := by
      refine List.map_congr_left fun entry hmem => ?_
      rw [hσ.slotOf_eq hs ((hperm'.trans hperm).mem_iff.mp hmem)]
    rw [hmodels', hmodels, hslots, List.map_map]
    exact hperm'.map _
  · exact Except.ok.inj hendpoints
  · rw [htypes, htypes']
    exact htwin.lookup_eq
  · rw [htypes, htypes']
    exact htwin.annotations_eq
  · intro i
    rw [ResolvedApi.SameType, SimilarType, htypes, htypes']
    by_cases hi : i < s.types.size
    · obtain ⟨t, t', ht, ht', hsame⟩ := hσ.types_eq hd hs hs' hi
      have hlt := hrenames.lt i hi
      rw [hgrows.get?_eq i hi, hgrows'.get?_eq (σ i) hlt, ht, ht']
      rcases hsame with rfl | ⟨v, hv, hback, hl, hsimilar⟩
      · exact Or.inl rfl
      · refine Or.inr ⟨v, t, t', hv, hback, hgrows.lookup_eq _ _ hl, rfl, rfl, ?_⟩
        exact hsimilar.grows hgrows hgrows' (hs.settled.closed.references_lt i t ht)
          (hs'.settled.closed.references_lt (σ i) t' ht')
    · exact Or.inl (htwin.get?_eq i (Nat.le_of_not_lt hi))

/-- **Why a run fails in one order, but not in another one.** -/
theorem knot_of_runInOrder (hd : r.description.Tidy)
    {components components' : List (String × SchemaNode)}
    (hperm : components.Perm r.description.components)
    (hperm' : components'.Perm r.description.components) {api : ResolvedApi} {e : Error}
    (h : r.runInOrder components = .ok api) (h' : r.runInOrder components' = .error e) :
    ∃ name n, r.Knot name n ∧ ¬ r.OnBareCycle none ⟨n, name, true⟩ ∧
      e = .cyclicReference n.key.text := by
  obtain ⟨es, s, last, hc, hes, ho, _⟩ := parts_of_runInOrder h
  obtain ⟨hs, _⟩ := complete_of_resolveComponents hd (fun _ => hperm.mem_iff) hc
  unfold runInOrder at h'
  cases hc' : (r.resolveComponents components').outcome {} with
  | mk told s' =>
      rw [hc'] at h'
      cases told with
      | error e' =>
          cases h'
          exact hs.knot_of_resolveComponents hd (fun entry => hperm'.mem_iff.mp) hc'
      | ok models' =>
          -- The operations are resolved in the same way in both orders.
          obtain ⟨hs', _⟩ := complete_of_resolveComponents hd (fun _ => hperm'.mem_iff) hc'
          obtain ⟨σ, hrenames, hσ⟩ := exists_renames hd hs hs'
          obtain ⟨last', ho', _⟩ := lockstep_resolveEndpoints (r := r) hrenames es s s' _ last
            (hσ.twinStates hd hs hs' hrenames) ho
          simp only [hes, ho'] at h'
          cases h'

/-- The order of the components makes no difference: no component ties a knot, unless it lies on a
cycle of schemas around one other schema alone, and no composed type has a constituent of
alternatives that leads back to it. -/
structure OrderFree (r : Resolver) : Prop where
  /-- No component ties a knot that is not bare. -/
  bare : ∀ name n, r.Knot name n → r.OnBareCycle none ⟨n, name, true⟩
  /-- No constituent of alternatives leads back. -/
  forward : ∀ v, r.Reached v → ¬ r.TurnsBack v

/-- A run that succeeds in one order succeeds in every order. -/
theorem OrderFree.exists_ok (h : r.OrderFree) (hd : r.description.Tidy)
    {components components' : List (String × SchemaNode)}
    (hperm : components.Perm r.description.components)
    (hperm' : components'.Perm r.description.components) {api : ResolvedApi}
    (hok : r.runInOrder components = .ok api) :
    ∃ api', r.runInOrder components' = .ok api' := by
  cases h' : r.runInOrder components' with
  | ok api' => exact ⟨api', rfl⟩
  | error e =>
      obtain ⟨name, n, hknot, hbare, _⟩ := knot_of_runInOrder hd hperm hperm' hok h'
      exact absurd (h.bare name n hknot) hbare

/-- A run fails in an order that begins with a knot. -/
theorem Knot.run_fails (hd : r.description.Tidy) {name : String} {n : SchemaNode}
    (h : r.Knot name n) (rest : List (String × SchemaNode)) :
    ∃ e, r.runInOrder ((name, n) :: rest) = .error e := by
  cases hrun : r.runInOrder ((name, n) :: rest) with
  | error e => exact ⟨e, rfl⟩
  | ok api =>
      obtain ⟨_, _, _, hc, _⟩ := parts_of_runInOrder hrun
      exact absurd hc (h.fails hd)

theorem OrderFree.sameType (h : r.OrderFree) {σ : Nat → Nat} {api api' : ResolvedApi} {i : Nat}
    (hi : ResolvedApi.SameType σ api api' i ∨ r.SimilarType σ api api' i) :
    ResolvedApi.SameType σ api api' i := by
  rcases hi with hsame | ⟨v, _, _, hv, hback, _⟩
  · exact hsame
  · exact absurd hback (h.forward v hv)

end Resolver

/-- **What the order of the components can change.** Of two documents that differ in this order
alone, if one cannot be read, the other one cannot be read for the same reason. If both are
resolved, their slots are matched, components with components, and the types in matched slots are
the same, except that a composed type may keep other constituents of alternatives if one of them
leads back to it. If one is resolved alone, the other one fails with a cycle at a component that
ties a knot, and every order that begins with such a component fails. Where the description is
free of both, both are resolved, to the same types, or none is. -/
theorem resolveText_reordered {text text' : String} {options : Options} {v v' : Value}
    (hread : Yaml.read? text = some v) (hread' : Yaml.read? text' = some v')
    (h : v.Reordered v') :
    (∃ fault, resolveText text options = .error (.description fault) ∧
      resolveText text' options = .error (.description fault)) ∨
    ∃ d d', Description.load text = .ok d ∧ Description.load text' = .ok d' ∧ d.Reordered d' ∧
      (∀ api api', resolveText text options = .ok api → resolveText text' options = .ok api' →
        ∃ σ, ResolvedApi.Matched σ api api' ∧ ∀ i, ResolvedApi.SameType σ api api' i ∨
          (Resolver.mk d options).SimilarType σ api api' i) ∧
      (∀ api e, resolveText text options = .ok api → resolveText text' options = .error e →
        ∃ name n, (Resolver.mk d options).Knot name n ∧
          ¬ (Resolver.mk d options).OnBareCycle none ⟨n, name, true⟩ ∧
          e = .cyclicReference n.key.text) ∧
      (∀ name n rest, d'.components = (name, n) :: rest → (Resolver.mk d options).Knot name n →
        ∃ e, resolveText text' options = .error e) ∧
      ((Resolver.mk d options).OrderFree →
        (∀ e, resolveText text options = .error e → ∃ e', resolveText text' options = .error e') ∧
        ∀ api, resolveText text options = .ok api → ∃ api' σ,
          resolveText text' options = .ok api' ∧ ResolvedApi.Matched σ api api' ∧
          ∀ i, ResolvedApi.SameType σ api api' i) := by
  have hload := Description.load_reordered hread hread' h
  unfold resolveText
  cases hd : Description.load text with
  | error fault =>
      rw [hd] at hload
      cases hd' : Description.load text' with
      | ok d' =>
          rw [hd'] at hload
          cases hload
      | error fault' =>
          rw [hd'] at hload
          cases hload
          exact Or.inl ⟨fault, rfl, rfl⟩
  | ok d =>
      rw [hd] at hload
      cases hd' : Description.load text' with
      | error fault' =>
          rw [hd'] at hload
          cases hload
      | ok d' =>
          rw [hd'] at hload
          cases hload with
          | ok hreordered =>
              have htidy : d.Tidy := Description.tidy_of_load hd
              have hperm : d'.components.Perm d.components := hreordered.components_perm
              simp only
              rw [Resolver.run_eq_of_reordered htidy hreordered, Resolver.run_eq_runInOrder]
              refine Or.inr ⟨d, d', rfl, rfl, hreordered, fun api api' hok hok' => ?_,
                fun api e hok herror => ?_, fun name n rest hfirst hknot => ?_, fun hfree =>
                ⟨fun e herror => ?_, fun api hok => ?_⟩⟩
              · exact Resolver.matched_of_runInOrder htidy (List.Perm.refl _) hperm hok hok'
              · exact Resolver.knot_of_runInOrder htidy (List.Perm.refl _) hperm hok herror
              · rw [hfirst]
                exact hknot.run_fails htidy rest
              · cases hok' : (Resolver.mk d options).runInOrder d'.components with
                | error e' => exact ⟨e', rfl⟩
                | ok api' =>
                    obtain ⟨api, hok⟩ :=
                      hfree.exists_ok htidy hperm (List.Perm.refl _) hok'
                    rw [hok] at herror
                    cases herror
              · obtain ⟨api', hok'⟩ := hfree.exists_ok htidy (List.Perm.refl _) hperm hok
                obtain ⟨σ, hmatched, hsame⟩ :=
                  Resolver.matched_of_runInOrder htidy (List.Perm.refl _) hperm hok hok'
                exact ⟨api', σ, hok', hmatched, fun i => hfree.sameType (hsame i)⟩

/-! ## An array and an object on a cycle -/

/-- An array of nodes. -/
def listOfNodes : String × Value :=
  ("List", .object [("type", .str "array"),
    ("items", .object [("$ref", .str "#/components/schemas/Node")])])

/-- A node that has an array of nodes. -/
def nodeWithList : String × Value :=
  ("Node", .object [("properties",
    .object [("next", .object [("$ref", .str "#/components/schemas/List")])])])

/-- A document without operations. -/
def documentOf (schemas : List (String × Value)) : Value :=
  .object [("openapi", .str "3.0.0"),
    ("info", .object [("title", .str "a"), ("version", .str "b")]), ("paths", .object []),
    ("components", .object [("schemas", .object schemas)])]

theorem documentOf_reordered {schemas schemas' : List (String × Value)}
    (h : schemas.Perm schemas') : (documentOf schemas).Reordered (documentOf schemas') := by
  refine .object (fun other hother => ?_) rfl rfl (.object (fun other hother => ?_) rfl rfl
    (.object h))
  · have hne : ¬ "components" = other := fun heq => hother heq.symm
    simp [findValue?, hne]
  · have hne : ¬ "schemas" = other := fun heq => hother heq.symm
    simp [findValue?, hne]

/-- A description of a list of nodes that have a list of nodes each, the nodes first. -/
def nodesWithLists : String :=
  "openapi: 3.0.0\ninfo:\n  title: a\n  version: b\npaths: \x7b\x7d\ncomponents:\n  schemas:\n"
    ++ "    Node:\n      properties:\n        next:\n          $ref: '#/components/schemas/List'\n"
    ++ "    List:\n      type: array\n      items:\n        $ref: '#/components/schemas/Node'\n"

theorem resolveText_nodesWithLists :
    Yaml.read? nodesWithLists = some (documentOf [nodeWithList, listOfNodes]) ∧
      Yaml.read? listsOfNodes = some (documentOf [listOfNodes, nodeWithList]) ∧
      (documentOf [nodeWithList, listOfNodes]).Reordered
        (documentOf [listOfNodes, nodeWithList]) ∧
      (∃ api, resolveText nodesWithLists {} = .ok api) ∧
      ∃ d name n, Description.load nodesWithLists = .ok d ∧ (Resolver.mk d {}).Knot name n ∧
        resolveText listsOfNodes {} = .error (.cyclicReference n.key.text) := by
  have hchars : nodesWithLists = String.ofList _ :=
    Text.append_eq_ofList (Text.append_eq_ofList rfl rfl) rfl
  have hread : Yaml.read? nodesWithLists = some (documentOf [nodeWithList, listOfNodes]) := by
    rw [Yaml.read?_ofList hchars]
    decide +kernel
  have hchars' : listsOfNodes = String.ofList _ :=
    Text.append_eq_ofList (Text.append_eq_ofList rfl rfl) rfl
  have hread' : Yaml.read? listsOfNodes = some (documentOf [listOfNodes, nodeWithList]) := by
    rw [Yaml.read?_ofList hchars']
    decide +kernel
  have hreordered : (documentOf [nodeWithList, listOfNodes]).Reordered
      (documentOf [listOfNodes, nodeWithList]) :=
    documentOf_reordered (List.Perm.swap listOfNodes nodeWithList [])
  have hends : (match resolveText nodesWithLists {}, resolveText listsOfNodes {} with
      | .ok _, .error _ => true
      | _, _ => false) = true := by
    rw [resolveText, resolveText, Description.load, Description.load, hread, hread']
    decide +kernel
  cases hok : resolveText nodesWithLists {} with
  | error e =>
      rw [hok] at hends
      cases hends
  | ok api =>
      cases herror : resolveText listsOfNodes {} with
      | ok api' =>
          rw [hok, herror] at hends
          cases hends
      | error e =>
          refine ⟨hread, hread', hreordered, ⟨api, rfl⟩, ?_⟩
          rcases @resolveText_reordered _ _ {} _ _ hread hread' hreordered with
            ⟨fault, hfault, _⟩ | ⟨d, d', hload, _, _, _, hknot, _⟩
          · rw [hok] at hfault
            cases hfault
          · obtain ⟨name, n, hn, _, rfl⟩ := hknot api e hok herror
            exact ⟨d, name, n, hload, hn, rfl⟩

end ApiTypes
