import ApiTypes.Proofs.Document.Characters
import ApiTypes.Proofs.Document.Equality
import ApiTypes.Proofs.OpenApi.Loading
import ApiTypes.Proofs.Walk.Composed

/-!
# What the constituents of composed types are

A constituent of a composed type is an object or a composed type, with one exception: a schema of
alternatives is kept if it was still being resolved when it was looked at, since its type was not
known then. Such a schema leads back to the composed schema (`Resolver.LoopsBack`). That this
happens does not depend on chance: what is being resolved when a call begins is kept by every
composed schema below (`Walked.keeps`), so the exception always occurs if the schema of
alternatives is the first component.
-/

set_option autoImplicit false

namespace ApiTypes

namespace Resolver

/-- A composed schema has a constituent with alternatives that leads back to it. -/
structure LoopsBack (r : Resolver) (path : Option String) (v w : Visit) : Prop where
  /-- The composed schema is in place. -/
  proper : v.Proper r.description
  /-- The other one is a constituent of it. -/
  composes : r.Composes path v w
  /-- It has alternatives. -/
  alternatives : r.HasAlternatives path w
  /-- It leads back. -/
  back : Relation.ReflTransGen (r.Link path) w.node.key v.node.key

variable {r : Resolver} {path : Option String} {s : WalkState} {v w : Visit}

/-- The slot of a schema with alternatives. -/
theorem Meets.kind_of_alternatives {types : TypeStore} {id : Nat} (h : r.Meets path types v id)
    (hv : r.HasAlternatives path v) : ∃ t, types.get? id = some t ∧ t.kind = "polymorphic" := by
  obtain ⟨label, alternatives, hd⟩ := hv.demand_eq
  obtain ⟨found, _, hget⟩ := h.of_composite hd
  exact ⟨_, hget, rfl⟩

theorem kind_of_isConstituent {t : ModelType} (h : isConstituent (some t) = true) :
    t.kind = "object" ∨ t.kind = "all-of" := by
  cases t with
  | object name package properties required c d => exact Or.inl rfl
  | allOf name package items d => exact Or.inr rfl
  | _ => cases h

/-- **A constituent is an object or a composed type, or has alternatives and loops back.** -/
theorem Settled.kind_of_constituent (hs : r.Settled (Visit.Proper r.description) s)
    (hd : r.description.Tidy) (hindexed : s.types.Indexed) {i j : Nat}
    (h : s.types.HasConstituent i j) :
    ∃ u, s.types.get? j = some u ∧ ((u.kind = "object" ∨ u.kind = "all-of") ∨
      (u.kind = "polymorphic" ∧ ∃ scope v w, r.LoopsBack scope v w ∧
        s.types.lookup ⟨scope, v.node.key⟩ = some i ∧
        s.types.lookup ⟨scope, w.node.key⟩ = some j)) := by
  obtain ⟨scope, v, w, hv, hcomposes, hi, hj, hkind⟩ := hs.exists_composes hindexed h
  rcases hkind with ⟨u, hu, hmay⟩ | ⟨hcomposite, hback⟩
  · exact ⟨u, hu, Or.inl (kind_of_isConstituent hmay)⟩
  · -- What is remembered for the constituent is known under the names of another visit.
    obtain ⟨x, hx⟩ := hs.known _ _ hj
    have hkey : x.node.key = w.node.key := congrArg MemoKey.schema hx.key_eq
    have hw : w.Proper r.description := hcomposes.2.proper hd hv
    obtain ⟨u, hu⟩ := hx.meets.exists_get?
    have hmakes := hx.meets.isConstituent_get?
    rw [hu] at hmakes
    refine ⟨u, hu, ?_⟩
    cases hmay : isConstituent (some u) with
    | true => exact Or.inl (kind_of_isConstituent hmay)
    | false =>
        have houtline := outline_demand scope hx.holds hw hkey
        have hxcomposite : (r.demand scope x).isComposite = true := by
          rw [← Demand.isComposite_outline, houtline, Demand.isComposite_outline]
          exact hcomposite
        have hxalternatives : r.HasAlternatives scope x :=
          hasAlternatives_of_isComposite hxcomposite (hmakes.symm.trans hmay)
        obtain ⟨u', hu', hkind⟩ := hx.meets.kind_of_alternatives hxalternatives
        rw [hu] at hu'
        cases hu'
        exact Or.inr ⟨hkind, scope, v, w,
          ⟨hv, hcomposes, hxalternatives.of_key_eq hx.holds hw hkey, hback⟩, hi, hj⟩

/-! ## What is kept for sure -/

/-- The slot of a composite schema was made around slots of which a given one was marked. -/
def Keeps (r : Resolver) (path : Option String) (k : Nat) (s : TypeStore) (key : MemoKey)
    (i : Nat) : Prop :=
  ∃ w, w.Proper r.description ∧ r.keyOf path w = key ∧
    ∀ children shape, r.demand path w = .composite children shape →
      ∃ found : List (Nat × Bool),
        List.Forall₂ (fun c entry => r.Finds path s c entry.1) children found ∧
        (∀ entry ∈ found, entry.1 = k → entry.2 = true) ∧
        s.get? i = some (Demand.filled shape found)

theorem Keeps.extends {k i : Nat} {types types' : TypeStore} {key : MemoKey}
    (h : r.Keeps path k types key i) (hext : Extends types types') :
    r.Keeps path k types' key i := by
  obtain ⟨w, hw, hkey, hmade⟩ := h
  refine ⟨w, hw, hkey, fun children shape hd => ?_⟩
  obtain ⟨found, hfound, hmarks, hget⟩ := hmade children shape hd
  exact ⟨found, hfound.imp fun c entry hc => hc.extends hext, hmarks, hext.get?_eq _ _ hget⟩

end Resolver

/-- What a call tells is remembered, and a given slot is marked wherever it is told. -/
def Call.Marks (r : Resolver) (path : Option String) (k : Nat) (s : TypeStore) :
    (c : Call) → c.Out → Prop
  | one v => fun id : Nat => ∃ w, r.enter v = .ok w ∧ s.lookup (r.keyOf path w) = some id
  | each cs => fun found : List (Nat × Bool) =>
      List.Forall₂ (fun c entry => r.Finds path s c entry.1) cs found ∧
        ∀ entry ∈ found, entry.1 = k → entry.2 = true

/-- What calls below a schema remember besides the schema itself are later slots. -/
theorem Walked.size_start_le {r : Resolver} {path : Option String} {depth : Nat} {c : Call}
    {s s₁ : WalkState} {out : Except Error c.Out} {key other : MemoKey} {i : Nat}
    (h : Walked r path depth c (s.start key) out s₁) (hclosed : s.types.Closed)
    (hne : ¬ other = key) (hk : s₁.types.lookup other = some i) (hle : s.types.size ≤ i) :
    (s.start key).types.size ≤ i := by
  rcases h.grows.lookup_new other i hk with hold | hnew
  · rw [WalkState.types_start, TypeStore.lookup_remember, if_neg hne,
      TypeStore.lookup_reserve] at hold
    have := hclosed.lookup_lt other i hold
    omega
  · exact hnew.1

/-- **A slot without a type is kept by everything that is resolved around it.** -/
theorem Walked.keeps {r : Resolver} {path : Option String} {depth : Nat} {c : Call}
    {s s' : WalkState} {out : Except Error c.Out} (hd : r.description.Tidy)
    (h : Walked r path depth c s out s') {told : c.Out} (hok : out = .ok told)
    (hc : ∀ x ∈ c.visits, x.Proper r.description) (hclosed : s.types.Closed) {k : Nat}
    (hlt : k < s.types.size) (hnone : s.types.get? k = none) :
    c.Marks r path k s'.types told ∧
    ∀ key (i : Nat), s'.types.lookup key = some i → s.types.size ≤ i →
      r.Keeps path k s'.types key i := by
  have hone : ∀ {v w : Visit}, (∀ x ∈ (Call.one v).visits, x.Proper r.description) →
      r.enter v = .ok w → w.Proper r.description :=
    fun hv hin => Resolver.proper_of_enter (hv _ List.mem_cons_self) hin
  induction h with
  | deep => cases hok
  | strayed hv => cases hok
  | @found depth v w s id hv hl =>
      cases hok
      refine ⟨⟨w, hv, hl⟩, fun key i hk hle => ?_⟩
      have := hclosed.lookup_lt key i hk
      omega
  | cyclic hv hl hp => cases hok
  | fault hin hd' => cases hok
  | @block depth v w s inner last hin hd' =>
      cases hok
      refine ⟨⟨w, hin.enter_eq, ?_⟩, fun key i hk hle => ?_⟩
      · rw [WalkState.types_withTypes, Resolver.lookup_settle, if_pos rfl]
      · rw [WalkState.types_withTypes, Resolver.lookup_settle, TypeStore.lookup_addBlock] at hk
        split at hk
        · rename_i heq
          refine ⟨w, hone hc hin.enter_eq, heq.symm, fun children shape hcomposite => ?_⟩
          cases hd'.symm.trans hcomposite
        · have := hclosed.lookup_lt key i hk
          omega
  | wrapperFails hin hd' _ ih => cases hok
  | @wrapper depth v w s s₁ item shape id hin hd' hw ih =>
      cases hok
      have hproper := hone hc hin.enter_eq
      have hitem : item ∈ (r.demand path w).children := by
        rw [hd']
        exact List.mem_cons_self
      obtain ⟨_, hkeeps⟩ := ih rfl (fun x hx => by
        rw [List.mem_singleton.mp hx]
        exact hproper.child hd (Resolver.node_mem_of_demand hitem)) hclosed hlt hnone
      have hkey : s₁.types.lookup (r.keyOf path w) = none :=
        hw.lookup_of_mem_pending List.mem_cons_self hin.lookup_eq
      have hgrows : Grows s₁.types (r.settle path w s₁.types.size
          (s₁.types.add (shape.rename fun _ => id)).2) := by
        refine ((Grows.refl s₁.types).add _).settle hkey (Nat.le_refl _) ?_
        rw [TypeStore.size_add]
        exact Nat.lt_succ_self _
      refine ⟨⟨w, hin.enter_eq, ?_⟩, fun key i hk hle => ?_⟩
      · rw [Resolver.types_settled, Resolver.lookup_settle, if_pos rfl]
      · rw [Resolver.types_settled, Resolver.lookup_settle, WalkState.types_withTypes,
          TypeStore.lookup_add] at hk
        split at hk
        · rename_i heq
          refine ⟨w, hproper, heq.symm, fun children shape hcomposite => ?_⟩
          cases hd'.symm.trans hcomposite
        · exact (hkeeps key i hk hle).extends hgrows.extends
  | compositeFails hin hd' _ ih => cases hok
  | @composite depth v w s s₁ children shape found hin hd' hw ih =>
      cases hok
      have hproper := hone hc hin.enter_eq
      have hsize := s.size_start (r.keyOf path w)
      have hget : ∀ i : Nat, (s.start (r.keyOf path w)).types.get? i = s.types.get? i := by
        intro i
        rw [WalkState.types_start, TypeStore.get?_remember, TypeStore.get?_reserve]
      obtain ⟨⟨hfound, hmarks⟩, hkeeps⟩ := ih rfl (fun x hx => by
          obtain ⟨child, hchild, rfl⟩ := List.mem_map.mp hx
          have hmem : child ∈ (r.demand path w).children := by
            rw [hd']
            exact hchild
          exact hproper.child hd (Resolver.node_mem_of_demand hmem))
        (WalkState.closed_start hclosed _) (by omega) (by rw [hget]; exact hnone)
      obtain ⟨hkey, hslot, hlt₁⟩ := hw.reserved
      have hext := Extends.fill_settle hslot hkey (Demand.filled shape found)
      refine ⟨⟨w, hin.enter_eq, ?_⟩, fun key i hk hle => ?_⟩
      · rw [Resolver.types_settled, Resolver.lookup_settle, if_pos rfl]
      · rw [Resolver.types_settled, Resolver.lookup_settle, WalkState.types_withTypes,
          TypeStore.lookup_fill] at hk
        split at hk
        · rename_i heq
          cases hk
          refine ⟨w, hproper, heq.symm, fun children' shape' hcomposite => ?_⟩
          cases hd'.symm.trans hcomposite
          refine ⟨found, hfound.imp fun c entry hc => hc.extends hext, hmarks, ?_⟩
          rw [Resolver.types_settled, Resolver.get?_settle, WalkState.types_withTypes,
            TypeStore.get?_fill, if_pos ⟨rfl, hlt₁⟩]
        · rename_i hne
          exact (hkeeps key i hk (hw.size_start_le hclosed hne hk hle)).extends hext
  | nil =>
      cases hok
      refine ⟨⟨.nil, fun entry hentry => by cases hentry⟩, fun key i hk hle => ?_⟩
      have := hclosed.lookup_lt key i hk
      omega
  | headFails _ ih => cases hok
  | tailFails _ _ ih₁ ih₂ => cases hok
  | @cons depth child rest s s₁ s₂ id others hhead hrest ih₁ ih₂ =>
      cases hok
      have hnone₁ : s₁.types.get? k = none := (hhead.grows.get?_eq k hlt).trans hnone
      obtain ⟨hfinds, hkeeps₁⟩ := ih₁ rfl (fun x hx => by
        rw [List.mem_singleton.mp hx]
        exact hc _ List.mem_cons_self) hclosed hlt hnone
      obtain ⟨⟨hothers, hmarks⟩, hkeeps₂⟩ := ih₂ rfl
        (fun x hx => hc x (List.mem_cons_of_mem _ hx)) (hhead.closed hclosed).1
        (Nat.lt_of_lt_of_le hlt hhead.grows.size_le) hnone₁
      have hext : Extends s₁.types s₂.types := hrest.grows.extends
      refine ⟨⟨.cons (Resolver.Finds.extends hfinds hext) hothers, fun entry hentry hk => ?_⟩,
        fun key i hk hle => ?_⟩
      · rcases List.mem_cons.mp hentry with rfl | hmem
        · -- The mark was set while the slot had no type.
          have hid : id = k := hk
          show Resolver.isConstituent (s₁.types.get? id) = true
          rw [hid, hnone₁]
          rfl
        · exact hmarks entry hmem hk
      · rcases hrest.grows.lookup_new key i hk with hold | hnew
        · exact (hkeeps₁ key i hold hle).extends hext
        · exact hkeeps₂ key i hk hnew.1

/-- A schema of alternatives is kept by everything that is resolved below it. -/
theorem Walked.keeps_alternatives {r : Resolver} {path : Option String} {depth : Nat} {v w : Visit}
    {s s' : WalkState} {id : Nat} (hd : r.description.Tidy)
    (h : Walked r path depth (.one v) s (.ok id) s') (hv : v.Proper r.description)
    (hin : r.enter v = .ok w) (hw : r.HasAlternatives path w)
    (hnone : s.types.lookup (r.keyOf path w) = none) (hclosed : s.types.Closed) :
    s'.types.lookup (r.keyOf path w) = some s.types.size ∧
    ∀ key (i : Nat), ¬ key = r.keyOf path w → s'.types.lookup key = some i → s.types.size ≤ i →
      r.Keeps path s.types.size s'.types key i := by
  obtain ⟨label, alternatives, hdemand⟩ := hw.demand_eq
  cases h with
  | found hin' hl =>
      cases hin.symm.trans hin'
      rw [hnone] at hl
      cases hl
  | block hin' hd' =>
      cases hin.symm.trans hin'.enter_eq
      cases hdemand.symm.trans hd'
  | wrapper hin' hd' hbelow =>
      cases hin.symm.trans hin'.enter_eq
      cases hdemand.symm.trans hd'
  | @composite depth _ w' _ s₁ children shape found hin' hd' hbelow =>
      cases hin.symm.trans hin'.enter_eq
      have hproper := Resolver.proper_of_enter hv hin
      have hsize := s.size_start (r.keyOf path w)
      have hget : (s.start (r.keyOf path w)).types.get? s.types.size = none := by
        rw [WalkState.types_start, TypeStore.get?_remember, TypeStore.get?_reserve]
        exact TypeStore.get?_eq_none_of_size_le _ (Nat.le_refl _)
      obtain ⟨_, hkeeps⟩ := hbelow.keeps hd rfl (fun x hx => by
          obtain ⟨child, hchild, rfl⟩ := List.mem_map.mp hx
          have hmem : child ∈ (r.demand path w).children := by
            rw [hd']
            exact hchild
          exact hproper.child hd (Resolver.node_mem_of_demand hmem))
        (WalkState.closed_start hclosed _) (by omega) hget
      obtain ⟨hkey, hslot, _⟩ := hbelow.reserved
      have hext := Extends.fill_settle hslot hkey (Demand.filled shape found)
      refine ⟨hext.lookup_eq _ _ hkey, fun key i hne hk hle => ?_⟩
      rw [Resolver.types_settled, Resolver.lookup_settle, if_neg hne, WalkState.types_withTypes,
        TypeStore.lookup_fill] at hk
      exact (hkeeps key i hk (hbelow.size_start_le hclosed hne hk hle)).extends hext

namespace Resolver

variable {r : Resolver} {v w : Visit}

/-- What a remembered schema leads to, step by step, is remembered. -/
theorem Settled.lookup_of_reaches {s : WalkState} (hd : r.description.Tidy)
    (hs : r.Settled (Visit.Proper r.description) s) (hw : w.Proper r.description)
    (hreach : Relation.ReflTransGen (r.Leads none) w v) {k : Nat}
    (hk : s.types.lookup (r.keyOf none w) = some k) :
    v.Proper r.description ∧ ∃ i, s.types.lookup (r.keyOf none v) = some i := by
  induction hreach with
  | refl => exact ⟨hw, k, hk⟩
  | @tail x y _ hlead ih =>
      obtain ⟨hx, i, hi⟩ := ih
      have hlink : r.Link none x.node.key y.node.key := ⟨x, y, hx, hlead, rfl, rfl⟩
      exact ⟨hlead.proper hd hx, (hs.standing none).lookup_of_link (ranges_proper hd none) hlink hi
        fun u hu => by cases hu⟩

/-- A composed schema keeps a constituent that was reserved when the composed schema was made. -/
theorem Keeps.hasConstituent {types : TypeStore} {i k : Nat}
    (h : r.Keeps none k types (r.keyOf none v) i) (hv : v.Proper r.description)
    (hcomposes : r.Composes none v w) (hk : types.lookup (r.keyOf none w) = some k) :
    types.HasConstituent i k := by
  obtain ⟨y, hy, hkey, hmade⟩ := h
  have hkeys : v.node.key = y.node.key := (congrArg MemoKey.schema hkey).symm
  obtain ⟨w', ⟨hcomposed, c, hc, hin⟩, hw'⟩ := hcomposes.of_key_eq hv hy hkeys
  obtain ⟨found, hfound, hmarks, hget⟩ := hmade _ _ hcomposed.demand_eq
  have hlength : found.length = y.node.allOf.length := by
    rw [← hfound.length_eq, length_listedChildren]
  rw [← hlength, Demand.filled_allOf] at hget
  refine ⟨_, hget, ?_⟩
  rw [hcomposed.demand_eq] at hc
  obtain ⟨entry, hentry, x, hx, hl⟩ := exists_of_mem_forall₂_left hfound hc
  rw [hin] at hx
  cases hx
  rw [keyOf_eq, hw', ← keyOf_eq, hk] at hl
  have hid : entry.1 = k := (Option.some.inj hl).symm
  exact List.mem_map.mpr ⟨entry, List.mem_filter.mpr ⟨hentry, hmarks entry hentry hid⟩, hid⟩

/-- **A schema of alternatives that is the first component is kept by what it leads to.** -/
theorem exists_kept_of_run (hd : r.description.Tidy) {api : ResolvedApi} (h : r.run = .ok api)
    {name : String} {n : SchemaNode} {rest : List (String × SchemaNode)}
    (hfirst : r.description.components = (name, n) :: rest)
    (hin : r.enter ⟨n, name, true⟩ = .ok w) (hw : r.HasAlternatives none w)
    (hreach : Relation.ReflTransGen (r.Leads none) w v) (hcomposes : r.Composes none v w) :
    ∃ i j : Nat, api.types.lookup (r.keyOf none v) = some i ∧
      api.types.lookup (r.keyOf none w) = some j ∧ api.types.HasConstituent i j := by
  have hmem : (name, n) ∈ r.description.components := by
    rw [hfirst]
    exact List.mem_cons_self
  have hn : Visit.Proper r.description ⟨n, name, true⟩ := Visit.proper_component hd hmem
  have hwproper : w.Proper r.description := proper_of_enter hn hin
  obtain ⟨es, s, last, hserves, htypes⟩ := serves_of_run h
  have hcomponents := hserves.components
  rw [hfirst] at hcomponents
  obtain ⟨told, s₁, hans, hrest⟩ := answered_of_askAll_cons hcomponents
  have hlater : Grows s₁.types api.types := by
    rw [htypes]
    exact (grows_of_askAll hrest).trans (grows_of_askAll hserves.endpoints)
  have hs₁ := hans.settled hd hmem (Settled.empty r _)
  cases hans with
  | component hwalked =>
      obtain ⟨hk, hkeeps⟩ :=
        hwalked.keeps_alternatives hd hn hin hw rfl TypeStore.Closed.empty
      obtain ⟨hv, i, hi⟩ := hs₁.lookup_of_reaches hd hwproper hreach hk
      have hne : ¬ r.keyOf none v = r.keyOf none w := fun heq =>
        hw.not_composed (hcomposes.1.of_key_eq hv hwproper (congrArg MemoKey.schema heq))
      have hkept := (hkeeps _ i hne hi (Nat.zero_le i)).extends hlater.extends
      have hk' := hlater.lookup_eq _ _ hk
      exact ⟨i, _, hlater.lookup_eq _ _ hi, hk', hkept.hasConstituent hv hcomposes hk'⟩

end Resolver

/-! ## Results -/

/-- **What the constituents in a result are.** A constituent of a composed type is an object or a
composed type, or it is of alternatives and loops back to the composed schema. So all constituents
are objects and composed types if no schema loops back in this way. Where the first component does,
it is kept as a constituent. -/
theorem constituents_of_resolveText {text : String} {options : Options} {api : ResolvedApi}
    (h : resolveText text options = .ok api) :
    ∃ d, Description.load text = .ok d ∧
      (∀ i j, api.types.HasConstituent i j →
        ∃ u, api.types.get? j = some u ∧ ((u.kind = "object" ∨ u.kind = "all-of") ∨
          (u.kind = "polymorphic" ∧ ∃ scope v w, (Resolver.mk d options).LoopsBack scope v w ∧
            api.types.lookup ⟨scope, v.node.key⟩ = some i ∧
            api.types.lookup ⟨scope, w.node.key⟩ = some j))) ∧
      ((∀ scope v w, ¬ (Resolver.mk d options).LoopsBack scope v w) →
        ∀ i j, api.types.HasConstituent i j →
          ∃ u, api.types.get? j = some u ∧ (u.kind = "object" ∨ u.kind = "all-of")) ∧
      ∀ name n rest v w, d.components = (name, n) :: rest →
        (Resolver.mk d options).enter ⟨n, name, true⟩ = .ok w →
        (Resolver.mk d options).HasAlternatives none w →
        Relation.ReflTransGen ((Resolver.mk d options).Leads none) w v →
        (Resolver.mk d options).Composes none v w →
        ∃ i j u, api.types.lookup ((Resolver.mk d options).keyOf none v) = some i ∧
          api.types.lookup ((Resolver.mk d options).keyOf none w) = some j ∧
          api.types.HasConstituent i j ∧ api.types.get? j = some u ∧ u.kind = "polymorphic" := by
  unfold resolveText at h
  cases hload : Description.load text with
  | error fault =>
      rw [hload] at h
      cases h
  | ok d =>
      rw [hload] at h
      have hd := Description.tidy_of_load hload
      obtain ⟨s, hs, htypes⟩ := Resolver.settled_of_run hd h
      have hindexed := Resolver.indexed_of_run h
      refine ⟨d, rfl, fun i j hij => ?_, fun hnone i j hij => ?_,
        fun name n rest v w hfirst hin hw hreach hcomposes => ?_⟩
      · rw [htypes] at hij hindexed ⊢
        exact hs.kind_of_constituent hd hindexed hij
      · rw [htypes] at hij hindexed ⊢
        obtain ⟨u, hu, hkind | ⟨_, scope, v, w, hloops, _⟩⟩ :=
          hs.kind_of_constituent hd hindexed hij
        · exact ⟨u, hu, hkind⟩
        · exact absurd hloops (hnone scope v w)
      · obtain ⟨i, j, hi, hj, hij⟩ :=
          Resolver.exists_kept_of_run hd h hfirst hin hw hreach hcomposes
        have hcomponent : (name, n) ∈ d.components := by
          rw [hfirst]
          exact List.mem_cons_self
        obtain ⟨x, hx⟩ := hs.known _ _ (htypes ▸ hj)
        have hwproper : w.Proper d :=
          Resolver.proper_of_enter (Visit.proper_component hd hcomponent) hin
        have hxw := hw.of_key_eq hwproper hx.holds (congrArg MemoKey.schema hx.key_eq).symm
        obtain ⟨u, hu, hkind⟩ := hx.meets.kind_of_alternatives hxw
        exact ⟨i, j, u, hi, hj, hij, htypes ▸ hu, hkind⟩

/-! ## A shape that is a circle -/

/-- A shape is a circle. -/
def shapeSchema : Schema :=
  .inline {} [] [.reference "#/components/schemas/Circle"] [] [] none .none

/-- A circle is composed of a shape. -/
def circleSchema : Schema :=
  .inline {} [.reference "#/components/schemas/Shape"] [] [] [] none .none

/-- A description of both. -/
def shapeDescription : Description where
  dialect := .early
  version := "3.0.0"
  schemas := [("Shape", shapeSchema), ("Circle", circleSchema)]

/-- The document of this description. -/
def shapeDocument : Value :=
  .object [("openapi", .str "3.0.0"),
    ("info", .object [("title", .str "a"), ("version", .str "b")]), ("paths", .object []),
    ("components", .object [("schemas", .object [
      ("Shape",
        .object [("oneOf", .list [.object [("$ref", .str "#/components/schemas/Circle")]])]),
      ("Circle",
        .object [("allOf", .list [.object [("$ref", .str "#/components/schemas/Shape")]])])])])]

/-- The text of this document. -/
def shapeText : String :=
  "openapi: 3.0.0\ninfo:\n  title: a\n  version: b\npaths: \x7b\x7d\ncomponents:\n  schemas:\n"
    ++ "    Shape:\n      oneOf:\n        - $ref: '#/components/schemas/Circle'\n"
    ++ "    Circle:\n      allOf:\n        - $ref: '#/components/schemas/Shape'\n"

theorem load_shapeText : Description.load shapeText = .ok shapeDescription := by
  have hchars : shapeText = String.ofList _ :=
    Text.append_eq_ofList (Text.append_eq_ofList rfl rfl) rfl
  have hread : Yaml.read? shapeText = some shapeDocument := by
    rw [Yaml.read?_ofList hchars]
    decide +kernel
  rw [Description.load, hread]
  with_unfolding_all rfl

/-- The visit of the shape. -/
def shapeVisit : Visit := ⟨⟨SchemaKey.component "Shape", shapeSchema⟩, "Shape", true⟩

/-- The visit of the circle. -/
def circleVisit : Visit := ⟨⟨SchemaKey.component "Circle", circleSchema⟩, "Circle", true⟩

/-- The circle keeps the shape as a constituent, although it is of alternatives. -/
theorem constituents_of_shapeText :
    ∃ api i j u, resolveText shapeText {} = .ok api ∧ api.types.HasConstituent i j ∧
      api.types.get? j = some u ∧ u.kind = "polymorphic" ∧
      ∃ scope v w, (Resolver.mk shapeDescription {}).LoopsBack scope v w ∧
        api.types.lookup ⟨scope, v.node.key⟩ = some i ∧
        api.types.lookup ⟨scope, w.node.key⟩ = some j := by
  have hends : (Resolver.mk shapeDescription {}).run.toOption.isSome = true := by decide +kernel
  cases h : resolveText shapeText {} with
  | error e =>
      rw [resolveText, load_shapeText] at h
      simp only at h
      rw [h] at hends
      cases hends
  | ok api =>
      obtain ⟨d, hload, hkind, _, hkept⟩ := constituents_of_resolveText h
      rw [load_shapeText] at hload
      cases hload
      have halternatives : (Resolver.mk shapeDescription {}).HasAlternatives none shapeVisit :=
        ⟨rfl, rfl, fun hnone => by cases hnone.1⟩
      have hcomposed : (Resolver.mk shapeDescription {}).Composed none circleVisit :=
        ⟨rfl, fun hnone => by cases hnone⟩
      have hleads : (Resolver.mk shapeDescription {}).Leads none shapeVisit circleVisit :=
        ⟨_, List.mem_cons_self, by with_unfolding_all rfl⟩
      have hback : (Resolver.mk shapeDescription {}).Leads none circleVisit shapeVisit :=
        ⟨_, List.mem_cons_self, by with_unfolding_all rfl⟩
      obtain ⟨i, j, u, _, _, hij, hu, hukind⟩ :=
        hkept _ _ _ circleVisit shapeVisit rfl rfl halternatives (.single hleads)
          ⟨hcomposed, hback⟩
      obtain ⟨u', hu', hother⟩ := hkind i j hij
      rw [hu] at hu'
      cases hu'
      rcases hother with hother | ⟨_, hloops⟩
      · rw [hukind] at hother
        simp at hother
      · exact ⟨api, i, j, u, rfl, hij, hu, hukind, hloops⟩

end ApiTypes
