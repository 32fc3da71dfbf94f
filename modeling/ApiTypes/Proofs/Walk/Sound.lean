import ApiTypes.Proofs.Document.Loops
import ApiTypes.Proofs.Walk.Closed
import ApiTypes.Proofs.Walk.Reach
import Mathlib.Data.List.Chain

/-!
# What is remembered is what is demanded

A slot meets a schema in a store if it holds what the schema demands, made around the slots that
are remembered for the schemas below (`Resolver.Meets`). While a walk is on its way, what is
remembered is a slot that meets its schema, or the reserved slot of a schema that is still being
resolved; the latter stand on a stack, each of them leading to the next one
(`Resolver.Standing`). Successful calls keep this (`Walked.standing`), and where nothing is being
resolved, everything that is remembered is met.
-/

set_option autoImplicit false

namespace ApiTypes

namespace Resolver

variable (r : Resolver)

/-- The slot that is remembered for a schema below another one, references followed. -/
def Finds (path : Option String) (s : TypeStore) (c : Child) (id : Nat) : Prop :=
  ∃ w, r.enter c.visit = .ok w ∧ s.lookup (r.keyOf path w) = some id

/-- One schema demands another one, as their keys tell. -/
def Link (path : Option String) (key key' : SchemaKey) : Prop :=
  ∃ v w : Visit, v.Proper r.description ∧ r.Leads path v w ∧ v.node.key = key ∧ w.node.key = key'

/-- The mark of a schema below another one: whether its type may be a constituent. A type that was
not known yet may be one; then its schema was still being resolved, and leads to the other one. -/
def Marked (path : Option String) (s : TypeStore) (v : Visit) (c : Child) (entry : Nat × Bool) :
    Prop :=
  (∃ t, s.get? entry.1 = some t ∧ entry.2 = isConstituent (some t)) ∨
  (entry.2 = true ∧ ∃ w, r.enter c.visit = .ok w ∧ (r.demand path w).isComposite = true ∧
    Relation.ReflTransGen (r.Link path) w.node.key v.node.key)

/-- A slot that holds what a schema demands. -/
inductive Meets (path : Option String) (s : TypeStore) (v : Visit) (id : Nat) : Prop
  | block {inner : List ModelType} {last : ModelType} {base : Nat} :
      r.demand path v = .block inner last → id = base + inner.length →
      (∀ i t, (inner ++ [last])[i]? = some t →
        s.get? (base + i : Nat) = some (t.rename (base + ·))) →
      Meets path s v id
  | wrapper {item : Child} {shape : ModelType} {itemId : Nat} :
      r.demand path v = .wrapper item shape → r.Finds path s item itemId → itemId < id →
      s.get? id = some (shape.rename fun _ => itemId) → Meets path s v id
  | composite {children : List Child} {shape : ModelType} {found : List (Nat × Bool)} :
      r.demand path v = .composite children shape →
      List.Forall₂ (fun c entry => r.Finds path s c entry.1 ∧ r.Marked path s v c entry)
        children found →
      s.get? id = some (Demand.filled shape found) → Meets path s v id

/-- Proper schemas that demand only schemas among them. -/
structure Ranges (path : Option String) (P : Visit → Prop) : Prop where
  /-- They are proper. -/
  proper : ∀ v, P v → v.Proper r.description
  /-- What they lead to is among them. -/
  leads : ∀ v w, P v → r.Leads path v w → P w

/-- A slot that is remembered, holds what its schema demands and has its annotations. -/
structure Knows (P : Visit → Prop) (s : TypeStore) (key : MemoKey) (id : Nat) (v : Visit) :
    Prop where
  /-- The schema is remembered under its key. -/
  key_eq : r.keyOf key.scope v = key
  /-- The schema is one of those that are resolved. -/
  holds : P v
  /-- The schema is no reference. -/
  reference?_eq : v.node.reference? = none
  /-- The slot holds what it demands. -/
  meets : r.Meets key.scope s v id
  /-- The slot has its annotations, each once. -/
  annotations_eq : s.annotations id
    = (r.nodeAnnotations key.scope v.node v.features).foldl TypeStore.addAnnotation []

end Resolver

/-! ## Larger stores -/

/-- A store that has what another one has, and may have filled its reserved slots. -/
structure Extends (s s' : TypeStore) : Prop where
  /-- A type that is there stays. -/
  get?_eq : ∀ (i : Nat) (t : ModelType), s.get? i = some t → s'.get? i = some t
  /-- A type that is there keeps its annotations. -/
  annotations_eq : ∀ (i : Nat) (t : ModelType), s.get? i = some t →
    s'.annotations i = s.annotations i
  /-- What is remembered stays remembered. -/
  lookup_eq : ∀ (key : MemoKey) (id : Nat), s.lookup key = some id → s'.lookup key = some id

theorem Grows.extends {s s' : TypeStore} (h : Grows s s') : Extends s s' where
  get?_eq _ _ hi := h.get?_some hi
  annotations_eq i _ hi := h.annotations_eq i (s.lt_size_of_get? hi)
  lookup_eq := h.lookup_eq

namespace Extends

variable {s s' : TypeStore}

/-- Filling a reserved slot, settling its schema on it. -/
theorem fill_settle {id : Nat} (hnone : s.get? id = none) {r : Resolver} {path : Option String}
    {v : Visit} (hkey : s.lookup (r.keyOf path v) = some id) (t : ModelType) :
    Extends s (r.settle path v id (s.fill id t)) where
  get?_eq i u hi := by
    have hne : ¬ (i = id ∧ i < s.size) := by
      rintro ⟨rfl, _⟩
      rw [hnone] at hi
      cases hi
    rw [Resolver.get?_settle, TypeStore.get?_fill, if_neg hne]
    exact hi
  annotations_eq i u hi := by
    have hne : ¬ (i = id ∧ i < (s.fill id t).size) := by
      rintro ⟨rfl, _⟩
      rw [hnone] at hi
      cases hi
    rw [Resolver.settle, TypeStore.annotations_annotateAll, TypeStore.size_remember, if_neg hne,
      TypeStore.annotations_remember, TypeStore.annotations_fill]
  lookup_eq other i hk := by
    rw [Resolver.lookup_settle]
    split
    · rename_i heq
      rw [heq, hkey] at hk
      exact hk
    · exact hk

end Extends

namespace Resolver

variable {r : Resolver} {path : Option String} {P : Visit → Prop} {s s' : TypeStore} {v : Visit}
  {c : Child} {id : Nat}

theorem Finds.extends (h : r.Finds path s c id) (hs : Extends s s') : r.Finds path s' c id := by
  obtain ⟨w, hw, hl⟩ := h
  exact ⟨w, hw, hs.lookup_eq _ _ hl⟩

theorem Marked.extends {entry : Nat × Bool} (h : r.Marked path s v c entry) (hs : Extends s s') :
    r.Marked path s' v c entry := by
  rcases h with ⟨t, ht, hmark⟩ | h
  · exact Or.inl ⟨t, hs.get?_eq _ _ ht, hmark⟩
  · exact Or.inr h

/-- A slot that meets a schema does so in every larger store. -/
theorem Meets.extends (h : r.Meets path s v id) (hs : Extends s s') : r.Meets path s' v id := by
  cases h with
  | block hd hid hinner =>
      exact .block hd hid fun i t ht => hs.get?_eq _ _ (hinner i t ht)
  | wrapper hd hfinds hlt hget =>
      exact .wrapper hd (hfinds.extends hs) hlt (hs.get?_eq _ _ hget)
  | composite hd hall hget =>
      refine .composite hd (hall.imp fun c entry h => ?_) (hs.get?_eq _ _ hget)
      exact ⟨h.1.extends hs, h.2.extends hs⟩

theorem link_scope (path : Option String) : r.Link (r.scopeOf path) = r.Link path := by
  funext key key'
  rw [Link, Link, leads_scope]

theorem Finds.scope (h : r.Finds path s c id) : r.Finds (r.scopeOf path) s c id := by
  obtain ⟨w, hw, hl⟩ := h
  exact ⟨w, hw, by rw [keyOf_scope]; exact hl⟩

theorem Marked.scope {entry : Nat × Bool} (h : r.Marked path s v c entry) :
    r.Marked (r.scopeOf path) s v c entry := by
  rcases h with h | ⟨hmark, w, hw, hc, hlink⟩
  · exact Or.inl h
  · refine Or.inr ⟨hmark, w, hw, by rw [demand_scope]; exact hc, ?_⟩
    rw [link_scope]
    exact hlink

/-- What meets a schema on a path meets it on all paths of the scope. -/
theorem Meets.scope (h : r.Meets path s v id) : r.Meets (r.scopeOf path) s v id := by
  have hdemand := demand_scope (r := r) path v
  cases h with
  | block hd hid hinner => exact .block (hdemand.trans hd) hid hinner
  | wrapper hd hfinds hlt hget => exact .wrapper (hdemand.trans hd) hfinds.scope hlt hget
  | composite hd hall hget =>
      exact .composite (hdemand.trans hd) (hall.imp fun c entry h => ⟨h.1.scope, h.2.scope⟩) hget

/-- A slot that meets a schema is filled. -/
theorem Meets.exists_get? (h : r.Meets path s v id) : ∃ t, s.get? id = some t := by
  cases h with
  | @block inner last base hd hid hinner =>
      refine ⟨_, hid ▸ hinner inner.length last ?_⟩
      rw [List.getElem?_append_right (Nat.le_refl _), Nat.sub_self]
      rfl
  | wrapper hd hfinds hlt hget => exact ⟨_, hget⟩
  | composite hd hall hget => exact ⟨_, hget⟩

theorem Meets.not_fault {e : Error} (h : r.Meets path s v id) :
    ¬ r.demand path v = .fault e := by
  intro hd
  cases h with
  | block hd' => cases hd.symm.trans hd'
  | wrapper hd' => cases hd.symm.trans hd'
  | composite hd' => cases hd.symm.trans hd'

theorem Meets.of_block {inner : List ModelType} {last : ModelType} (h : r.Meets path s v id)
    (hd : r.demand path v = .block inner last) :
    ∃ base : Nat, id = base + inner.length ∧ ∀ i t, (inner ++ [last])[i]? = some t →
      s.get? (base + i : Nat) = some (t.rename (base + ·)) := by
  cases h with
  | @block inner' last' base hd' hid hinner =>
      cases hd.symm.trans hd'
      exact ⟨base, hid, hinner⟩
  | wrapper hd' => cases hd.symm.trans hd'
  | composite hd' => cases hd.symm.trans hd'

/-- A block of one type. -/
theorem Meets.of_single {t : ModelType} (h : r.Meets path s v id)
    (hd : r.demand path v = .block [] t) (ht : t.references = []) : s.get? id = some t := by
  obtain ⟨base, hid, hinner⟩ := h.of_block hd
  have hbase : id = base := hid
  have hget : s.get? base = some (t.rename (base + ·)) := hinner 0 t rfl
  rw [hbase, hget]
  refine congrArg some ?_
  rw [ModelType.rename_congr (g := fun i => i) fun i hi => by rw [ht] at hi; cases hi]
  exact t.rename_id

theorem Meets.of_wrapper {item : Child} {shape : ModelType} (h : r.Meets path s v id)
    (hd : r.demand path v = .wrapper item shape) :
    ∃ itemId : Nat, r.Finds path s item itemId ∧ itemId < id ∧
      s.get? id = some (shape.rename fun _ => itemId) := by
  cases h with
  | block hd' => cases hd.symm.trans hd'
  | @wrapper item' shape' itemId hd' hfinds hlt hget =>
      cases hd.symm.trans hd'
      exact ⟨itemId, hfinds, hlt, hget⟩
  | composite hd' => cases hd.symm.trans hd'

theorem Meets.of_composite {children : List Child} {shape : ModelType} (h : r.Meets path s v id)
    (hd : r.demand path v = .composite children shape) :
    ∃ found : List (Nat × Bool),
      List.Forall₂ (fun c entry => r.Finds path s c entry.1 ∧ r.Marked path s v c entry)
        children found ∧
      s.get? id = some (Demand.filled shape found) := by
  cases h with
  | block hd' => cases hd.symm.trans hd'
  | wrapper hd' => cases hd.symm.trans hd'
  | @composite children' shape' found hd' hall hget =>
      cases hd.symm.trans hd'
      exact ⟨found, hall, hget⟩

/-- What a schema demands that is met is found. -/
theorem Meets.finds (h : r.Meets path s v id) {c : Child} (hc : c ∈ (r.demand path v).children) :
    ∃ i, r.Finds path s c i := by
  cases hd : r.demand path v with
  | fault e => exact absurd hd h.not_fault
  | block inner last =>
      rw [hd] at hc
      cases hc
  | wrapper item shape =>
      obtain ⟨i, hi, _⟩ := h.of_wrapper hd
      rw [hd] at hc
      rw [List.mem_singleton.mp hc]
      exact ⟨i, hi⟩
  | composite children shape =>
      obtain ⟨found, hfound, _⟩ := h.of_composite hd
      rw [hd] at hc
      obtain ⟨entry, _, hfinds, _⟩ := exists_of_mem_forall₂_left hfound hc
      exact ⟨entry.1, hfinds⟩

/-- What a schema leads to that is met is remembered. -/
theorem Meets.lookup_of_leads {w : Visit} (h : r.Meets path s v id) (hlead : r.Leads path v w) :
    ∃ i, s.lookup (r.keyOf path w) = some i := by
  obtain ⟨c, hc, hin⟩ := hlead
  obtain ⟨i, w', hw', hl⟩ := h.finds hc
  rw [hin] at hw'
  cases hw'
  exact ⟨i, hl⟩

theorem Knows.extends {key : MemoKey} (h : r.Knows P s key id v) (hs : Extends s s') :
    r.Knows P s' key id v where
  key_eq := h.key_eq
  holds := h.holds
  reference?_eq := h.reference?_eq
  meets := h.meets.extends hs
  annotations_eq := by
    obtain ⟨t, ht⟩ := h.meets.exists_get?
    rw [hs.annotations_eq id t ht]
    exact h.annotations_eq

/-! ## Walks that are on their way -/

/-- Schemas that are being resolved, innermost first, and what is remembered meanwhile. -/
structure Standing (r : Resolver) (path : Option String) (P : Visit → Prop) (stack : List Visit)
    (s : WalkState) : Prop where
  /-- The store refers to slots that are there. -/
  closed : s.types.Closed
  /-- The schemas on the stack are those that are being resolved. -/
  pending_eq : s.pending = stack.map (r.keyOf path)
  /-- No schema is on the stack twice. -/
  nodup : s.pending.Nodup
  /-- They are among those that are resolved. -/
  holds : ∀ v ∈ stack, P v
  /-- Each of them leads to the next one. -/
  chain : stack.IsChain fun inner outer => r.Leads path outer inner
  /-- Those that reserve a slot are remembered. -/
  open_lookup : ∀ v ∈ stack, (r.demand path v).isComposite = true →
    ∃ id : Nat, s.types.lookup (r.keyOf path v) = some id ∧ s.types.get? id = none
  /-- Everything that is remembered meets its schema, or is a reserved slot of the stack. -/
  known : ∀ (key : MemoKey) (id : Nat), s.types.lookup key = some id →
    (∃ v, r.Knows P s.types key id v) ∨
    (s.types.get? id = none ∧
      ∃ v ∈ stack, key = r.keyOf path v ∧ (r.demand path v).isComposite = true)
  /-- The slots that are not filled are those of the stack. -/
  filled : ∀ i : Nat, i < s.types.size → s.types.get? i = none →
    ∃ v ∈ stack, (r.demand path v).isComposite = true ∧
      s.types.lookup (r.keyOf path v) = some i

/-- A visit that the innermost schema on a stack makes. -/
structure Admits (r : Resolver) (path : Option String) (P : Visit → Prop) (stack : List Visit)
    (v : Visit) : Prop where
  /-- What the visit is about is among the schemas that are resolved. -/
  holds : ∀ w, r.enter v = .ok w → P w
  /-- The innermost schema leads to what the visit is about. -/
  leads : ∀ w, r.enter v = .ok w → ∀ u ∈ stack.head?, r.Leads path u w

namespace Standing

variable {stack : List Visit} {s : WalkState} {w : Visit}

/-- A schema that is entered is not on the stack. -/
theorem ne_of_mem (h : r.Standing path P stack s) (hin : r.Enters path v s w) {u : Visit}
    (hu : u ∈ stack) : ¬ r.keyOf path u = r.keyOf path w := by
  intro heq
  refine hin.notMem ?_
  rw [h.pending_eq, ← heq]
  exact List.mem_map_of_mem hu

theorem chain_cons (h : r.Standing path P stack s) (hv : r.Admits path P stack v)
    (hin : r.Enters path v s w) :
    (w :: stack).IsChain fun inner outer => r.Leads path outer inner :=
  List.isChain_cons.mpr ⟨hv.leads w hin.enter_eq, h.chain⟩

theorem holds_cons (h : r.Standing path P stack s) (hv : r.Admits path P stack v)
    (hin : r.Enters path v s w) : ∀ u ∈ w :: stack, P u := by
  intro u hu
  rcases List.mem_cons.mp hu with rfl | hu
  · exact hv.holds _ hin.enter_eq
  · exact h.holds u hu

/-- A schema without a slot of its own yet is put on the stack. -/
theorem push (h : r.Standing path P stack s) (hv : r.Admits path P stack v)
    (hin : r.Enters path v s w) (hd : (r.demand path w).isComposite = false) :
    r.Standing path P (w :: stack) (s.push (r.keyOf path w)) where
  closed := h.closed
  pending_eq := by rw [WalkState.pending_push, h.pending_eq, List.map_cons]
  nodup := List.nodup_cons.mpr ⟨hin.notMem, h.nodup⟩
  holds := h.holds_cons hv hin
  chain := h.chain_cons hv hin
  open_lookup u hu hc := by
    rcases List.mem_cons.mp hu with rfl | hu
    · rw [hd] at hc
      cases hc
    · exact h.open_lookup u hu hc
  known key id hk := by
    rcases h.known key id hk with hknown | ⟨hnone, u, hu, hkey, hc⟩
    · exact Or.inl hknown
    · exact Or.inr ⟨hnone, u, List.mem_cons_of_mem _ hu, hkey, hc⟩
  filled i hi hnone := by
    obtain ⟨u, hu, hc, hl⟩ := h.filled i hi hnone
    exact ⟨u, List.mem_cons_of_mem _ hu, hc, hl⟩

/-- A schema with a reserved slot is put on the stack. -/
theorem start (h : r.Standing path P stack s) (hv : r.Admits path P stack v)
    (hin : r.Enters path v s w) (hd : (r.demand path w).isComposite = true) :
    r.Standing path P (w :: stack) (s.start (r.keyOf path w)) where
  closed := WalkState.closed_start h.closed _
  pending_eq := by rw [WalkState.pending_start, h.pending_eq, List.map_cons]
  nodup := List.nodup_cons.mpr ⟨hin.notMem, h.nodup⟩
  holds := h.holds_cons hv hin
  chain := h.chain_cons hv hin
  open_lookup u hu hc := by
    rcases List.mem_cons.mp hu with rfl | hu
    · refine ⟨s.types.size, s.lookup_start _, ?_⟩
      rw [WalkState.types_start, TypeStore.get?_remember, TypeStore.get?_reserve]
      exact s.types.get?_eq_none_of_size_le (Nat.le_refl _)
    · obtain ⟨id, hl, hnone⟩ := h.open_lookup u hu hc
      refine ⟨id, (s.grows_start hin.lookup_eq).lookup_eq _ _ hl, ?_⟩
      rw [WalkState.types_start, TypeStore.get?_remember, TypeStore.get?_reserve]
      exact hnone
  known key id hk := by
    rw [WalkState.types_start, TypeStore.lookup_remember] at hk
    split at hk
    · rename_i hkey
      cases hk
      refine Or.inr ⟨?_, w, List.mem_cons_self, hkey, hd⟩
      rw [WalkState.types_start, TypeStore.get?_remember, TypeStore.get?_reserve]
      exact s.types.get?_eq_none_of_size_le (Nat.le_refl _)
    · rcases h.known key id hk with ⟨u, hu⟩ | ⟨hnone, u, hu, hkey, hc⟩
      · exact Or.inl ⟨u, hu.extends (s.grows_start hin.lookup_eq).extends⟩
      · refine Or.inr ⟨?_, u, List.mem_cons_of_mem _ hu, hkey, hc⟩
        rw [WalkState.types_start, TypeStore.get?_remember, TypeStore.get?_reserve]
        exact hnone
  filled i hi hnone := by
    rw [WalkState.size_start] at hi
    rw [WalkState.types_start, TypeStore.get?_remember, TypeStore.get?_reserve] at hnone
    by_cases heq : i = s.types.size
    · rw [heq]
      exact ⟨w, List.mem_cons_self, hd, s.lookup_start _⟩
    · obtain ⟨u, hu, hc, hl⟩ := h.filled i (by omega) hnone
      exact ⟨u, List.mem_cons_of_mem _ hu, hc, (s.grows_start hin.lookup_eq).lookup_eq _ _ hl⟩

/-- A schema that is settled on a slot that meets it is known. -/
theorem knows_settle {types : TypeStore} (hv : r.Admits path P stack v)
    (hin : r.Enters path v s w) {id : Nat}
    (hmeets : r.Meets path (r.settle path w id types) w id) (hnew : types.annotations id = []) :
    r.Knows P (r.settle path w id types) (r.keyOf path w) id w where
  key_eq := r.keyOf_scope path w
  holds := hv.holds w hin.enter_eq
  reference?_eq := reference?_of_enter hin.enter_eq
  meets := hmeets.scope
  annotations_eq := by
    have hscope := nodeAnnotations_scope (r := r) path w
    obtain ⟨t, ht⟩ := hmeets.exists_get?
    have hlt := TypeStore.lt_size_of_get? _ ht
    rw [size_settle] at hlt
    show (r.settle path w id types).annotations id
      = (r.nodeAnnotations (r.scopeOf path) w.node w.features).foldl TypeStore.addAnnotation []
    rw [hscope, settle, TypeStore.annotations_annotateAll, TypeStore.size_remember,
      TypeStore.annotations_remember, hnew, if_pos ⟨rfl, hlt⟩]

/-- A schema is settled on a slot that it knows, and leaves the stack if it is on it. No slot but
this one is filled meanwhile. -/
theorem finish {stack' : List Visit} {s' : WalkState} {types : TypeStore} {id : Nat}
    (h : r.Standing path P stack s) (h' : r.Standing path P stack' s')
    (hnotMem : r.keyOf path w ∉ s.pending)
    (hsub : ∀ u ∈ stack', u ∈ stack ∨ u = w) (hsup : ∀ u ∈ stack, u ∈ stack')
    (hext : Extends s'.types types) (hclosed : types.Closed)
    (hlookup : ∀ key, types.lookup key
      = if key = r.keyOf path w then some id else s'.types.lookup key)
    (hown : ∀ i : Nat, s'.types.lookup (r.keyOf path w) = some i → i = id)
    (hother : ∀ u ∈ stack, ∀ i : Nat, s'.types.lookup (r.keyOf path u) = some i → ¬ i = id)
    (hopen : ∀ i : Nat, ¬ i = id → i < s'.types.size → s'.types.get? i = none →
      types.get? i = none)
    (hfilled : ∀ i : Nat, i < types.size → types.get? i = none →
      ¬ i = id ∧ i < s'.types.size ∧ s'.types.get? i = none)
    (hknows : r.Knows P types (r.keyOf path w) id w) :
    r.Standing path P stack ⟨types, s.pending⟩ where
  closed := hclosed
  pending_eq := h.pending_eq
  nodup := h.nodup
  holds := h.holds
  chain := h.chain
  open_lookup u hu hc := by
    have hne : ¬ r.keyOf path u = r.keyOf path w := by
      intro heq
      refine hnotMem ?_
      rw [h.pending_eq, ← heq]
      exact List.mem_map_of_mem hu
    obtain ⟨i, hl, hnone⟩ := h'.open_lookup u (hsup u hu) hc
    refine ⟨i, ?_, hopen i (hother u hu i hl) (h'.closed.lookup_lt _ _ hl) hnone⟩
    rw [hlookup, if_neg hne]
    exact hl
  known key i hk := by
    rw [hlookup] at hk
    split at hk
    · rename_i hkey
      cases hk
      exact Or.inl ⟨w, hkey ▸ hknows⟩
    · rename_i hkey
      rcases h'.known key i hk with ⟨u, hu⟩ | ⟨hnone, u, hu, hkeyu, hc⟩
      · exact Or.inl ⟨u, hu.extends hext⟩
      · rcases hsub u hu with hmem | rfl
        · subst hkeyu
          exact Or.inr ⟨hopen i (hother u hmem i hk) (h'.closed.lookup_lt _ _ hk) hnone, u, hmem,
            rfl, hc⟩
        · exact absurd hkeyu hkey
  filled i hi hnone := by
    obtain ⟨hne, hlt, hnone'⟩ := hfilled i hi hnone
    obtain ⟨u, hu, hc, hl⟩ := h'.filled i hlt hnone'
    rcases hsub u hu with hmem | rfl
    · refine ⟨u, hmem, hc, ?_⟩
      have hneKey : ¬ r.keyOf path u = r.keyOf path w := by
        intro heq
        refine hnotMem ?_
        rw [h.pending_eq, ← heq]
        exact List.mem_map_of_mem hmem
      rw [hlookup, if_neg hneKey]
      exact hl
    · exact absurd (hown i hl) hne

/-- A schema that was demanded as a block is settled on its last slot. -/
theorem settle_block (h : r.Standing path P stack s) (hv : r.Admits path P stack v)
    (hin : r.Enters path v s w) {inner : List ModelType} {last : ModelType}
    (hd : r.demand path w = .block inner last) :
    r.Standing path P stack (s.withTypes
      (r.settle path w (s.types.size + inner.length) (s.types.addBlock inner last).2)) := by
  have hplaced : (Demand.block inner last).Placed := hd ▸ r.placed_demand path w
  have hlt : s.types.size + inner.length < (s.types.addBlock inner last).2.size := by
    rw [TypeStore.size_addBlock]
    omega
  have hgrows : Grows s.types (r.settle path w (s.types.size + inner.length)
      (s.types.addBlock inner last).2) :=
    ((Grows.refl s.types).addAll _).settle hin.lookup_eq (Nat.le_add_right _ _) hlt
  have hget : ∀ i : Nat, s.types.size ≤ i → i < s.types.size + (inner.length + 1) →
      (s.types.addBlock inner last).2.get? i
        = ((inner ++ [last])[i - s.types.size]?).map (·.rename (s.types.size + ·)) := by
    intro i hle _
    rw [TypeStore.get?_addBlock, if_neg (Nat.not_lt.mpr hle)]
  have hmeets : r.Meets path (r.settle path w (s.types.size + inner.length)
      (s.types.addBlock inner last).2) w (s.types.size + inner.length) := by
    refine @Meets.block _ _ _ _ _ _ _ s.types.size hd rfl fun i t ht => ?_
    have hi : i < (inner ++ [last]).length := (List.getElem?_eq_some_iff.mp ht).1
    rw [List.length_append, List.length_singleton] at hi
    rw [get?_settle, hget (s.types.size + i) (Nat.le_add_right _ _) (by omega),
      Nat.add_sub_cancel_left, ht]
    rfl
  have hnew : (s.types.addBlock inner last).2.annotations (s.types.size + inner.length) = [] := by
    rw [TypeStore.addBlock, TypeStore.annotations_addAll]
    exact TypeStore.annotations_eq_nil_of_size_le _ (Nat.le_add_right _ _)
  refine h.finish h hin.notMem (fun u hu => Or.inl hu) (fun u hu => hu) hgrows.extends
    ((h.closed.addBlock hplaced).settle r path w hlt) ?_ ?_ ?_ ?_ ?_
    (knows_settle hv hin hmeets hnew)
  · intro key
    rw [lookup_settle, TypeStore.lookup_addBlock]
  · intro i hl
    rw [hin.lookup_eq] at hl
    cases hl
  · intro u hu i hl
    have := h.closed.lookup_lt _ _ hl
    omega
  · intro i _ hi hnone
    rw [hgrows.get?_eq i hi]
    exact hnone
  · intro i hi hnone
    rw [size_settle, TypeStore.size_addBlock] at hi
    rw [get?_settle] at hnone
    by_cases hold : i < s.types.size
    · refine ⟨by omega, hold, ?_⟩
      rw [TypeStore.get?_addBlock, if_pos hold] at hnone
      exact hnone
    · have hlen : i - s.types.size < (inner ++ [last]).length := by
        rw [List.length_append, List.length_singleton]
        omega
      rw [hget i (Nat.le_of_not_lt hold) hi, List.getElem?_eq_getElem hlen] at hnone
      cases hnone

/-- A schema around that of another one is settled on a new slot. -/
theorem settle_wrapper (h : r.Standing path P stack s) (hv : r.Admits path P stack v)
    (hin : r.Enters path v s w) {item : Child} {shape : ModelType}
    (hd : r.demand path w = .wrapper item shape) {s₁ : WalkState} {itemId : Nat}
    (h₁ : r.Standing path P (w :: stack) s₁)
    (hkey : s₁.types.lookup (r.keyOf path w) = none)
    (hfinds : r.Finds path s₁.types item itemId) :
    r.Standing path P stack (r.settled path w s₁.types.size
      (s₁.withTypes (s₁.types.add (shape.rename fun _ => itemId)).2)) := by
  have hitem : itemId < s₁.types.size := by
    obtain ⟨u, _, hl⟩ := hfinds
    exact h₁.closed.lookup_lt _ _ hl
  have hlt : s₁.types.size < (s₁.types.add (shape.rename fun _ => itemId)).2.size := by
    rw [TypeStore.size_add]
    exact Nat.lt_succ_self _
  have hadd : (s₁.types.add (shape.rename fun _ => itemId)).2.Closed := by
    refine h₁.closed.add fun j hj => ?_
    rw [ModelType.references_rename, List.mem_map] at hj
    obtain ⟨_, _, rfl⟩ := hj
    exact hitem
  have hgrows : Grows s₁.types (r.settle path w s₁.types.size
      (s₁.types.add (shape.rename fun _ => itemId)).2) :=
    ((Grows.refl s₁.types).add _).settle hkey (Nat.le_refl _) hlt
  have hmeets : r.Meets path (r.settle path w s₁.types.size
      (s₁.types.add (shape.rename fun _ => itemId)).2) w s₁.types.size := by
    refine .wrapper hd (hfinds.extends hgrows.extends) hitem ?_
    rw [get?_settle, TypeStore.get?_add, if_pos rfl]
  have hnew : (s₁.types.add (shape.rename fun _ => itemId)).2.annotations s₁.types.size = [] := by
    rw [TypeStore.annotations_add]
    exact TypeStore.annotations_eq_nil_of_size_le _ (Nat.le_refl _)
  have hpending : s₁.pending.erase (r.keyOf path w) = s.pending := by
    rw [h₁.pending_eq, List.map_cons, List.erase_cons_head, h.pending_eq]
  have hsub : ∀ u ∈ w :: stack, u ∈ stack ∨ u = w := fun u hu => (List.mem_cons.mp hu).symm
  have hfinish := h.finish h₁ hin.notMem hsub (fun u hu => List.mem_cons_of_mem _ hu)
    hgrows.extends (hadd.settle r path w hlt) ?_ ?_ ?_ ?_ ?_ (knows_settle hv hin hmeets hnew)
  · rw [settled, WalkState.pending_withTypes, hpending]
    exact hfinish
  · intro key
    rw [lookup_settle, TypeStore.lookup_add]
  · intro i hl
    rw [hkey] at hl
    cases hl
  · intro u hu i hl
    have := h₁.closed.lookup_lt _ _ hl
    omega
  · intro i _ hi hnone
    rw [hgrows.get?_eq i hi]
    exact hnone
  · intro i hi hnone
    rw [size_settle, TypeStore.size_add] at hi
    rw [get?_settle, TypeStore.get?_add] at hnone
    split at hnone
    · cases hnone
    · exact ⟨by omega, by omega, hnone⟩

/-- A schema with a reserved slot is settled on it once it is filled. -/
theorem settle_composite (h : r.Standing path P stack s) (hv : r.Admits path P stack v)
    (hin : r.Enters path v s w) {children : List Child} {shape : ModelType}
    (hd : r.demand path w = .composite children shape) {s₁ : WalkState}
    {found : List (Nat × Bool)} (h₁ : r.Standing path P (w :: stack) s₁)
    (hgrows₁ : Grows (s.start (r.keyOf path w)).types s₁.types)
    (hfound : List.Forall₂ (fun c entry => r.Finds path s₁.types c entry.1 ∧
      r.Marked path s₁.types w c entry) children found) :
    r.Standing path P stack (r.settled path w s.types.size
      (s₁.withTypes (s₁.types.fill s.types.size (Demand.filled shape found)))) := by
  have hsize : s.types.size < s₁.types.size := by
    have := hgrows₁.size_le
    rw [WalkState.size_start] at this
    omega
  have hkey : s₁.types.lookup (r.keyOf path w) = some s.types.size :=
    hgrows₁.lookup_eq _ _ (s.lookup_start _)
  have hnone : s₁.types.get? s.types.size = none := by
    rw [hgrows₁.get?_eq s.types.size (by rw [WalkState.size_start]; exact Nat.lt_succ_self _),
      WalkState.types_start, TypeStore.get?_remember, TypeStore.get?_reserve]
    exact s.types.get?_eq_none_of_size_le (Nat.le_refl _)
  have hext : Extends s₁.types (r.settle path w s.types.size
      (s₁.types.fill s.types.size (Demand.filled shape found))) :=
    Extends.fill_settle hnone hkey _
  have hplaced : ∀ i : Nat, i ∈ shape.references → i < found.length := by
    intro i hi
    have hdemand : (Demand.composite children shape).Placed := hd ▸ r.placed_demand path w
    rw [← hfound.length_eq]
    exact hdemand i hi
  have hfill : (s₁.types.fill s.types.size (Demand.filled shape found)).Closed := by
    refine h₁.closed.fill s.types.size fun j hj => ?_
    obtain ⟨entry, hentry, rfl⟩ := List.mem_map.mp (Demand.mem_of_mem_filled hplaced hj)
    obtain ⟨c, _, ⟨u, _, hl⟩, _⟩ := exists_of_mem_forall₂ hfound hentry
    exact h₁.closed.lookup_lt _ _ hl
  have hlt : s.types.size < (s₁.types.fill s.types.size (Demand.filled shape found)).size := by
    rw [TypeStore.size_fill]
    exact hsize
  have hmeets : r.Meets path (r.settle path w s.types.size
      (s₁.types.fill s.types.size (Demand.filled shape found))) w s.types.size := by
    refine .composite hd (hfound.imp fun c entry hc => ⟨hc.1.extends hext, hc.2.extends hext⟩) ?_
    rw [get?_settle, TypeStore.get?_fill, if_pos ⟨rfl, hsize⟩]
  have hnew : (s₁.types.fill s.types.size (Demand.filled shape found)).annotations s.types.size
      = [] := by
    rw [TypeStore.annotations_fill,
      hgrows₁.annotations_eq s.types.size (by rw [WalkState.size_start]; exact Nat.lt_succ_self _),
      WalkState.types_start, TypeStore.annotations_remember, TypeStore.annotations_reserve]
    exact TypeStore.annotations_eq_nil_of_size_le _ (Nat.le_refl _)
  have hpending : s₁.pending.erase (r.keyOf path w) = s.pending := by
    rw [h₁.pending_eq, List.map_cons, List.erase_cons_head, h.pending_eq]
  have hsub : ∀ u ∈ w :: stack, u ∈ stack ∨ u = w := fun u hu => (List.mem_cons.mp hu).symm
  have hfinish := h.finish h₁ hin.notMem hsub (fun u hu => List.mem_cons_of_mem _ hu)
    hext (hfill.settle r path w hlt) ?_ ?_ ?_ ?_ ?_ (knows_settle hv hin hmeets hnew)
  · rw [settled, WalkState.pending_withTypes, hpending]
    exact hfinish
  · intro key
    rw [lookup_settle, TypeStore.lookup_fill]
  · intro i hl
    rw [hkey] at hl
    cases hl
    rfl
  · intro u hu i hl
    rcases hgrows₁.lookup_new _ _ hl with hl | ⟨hle, _⟩
    · rw [WalkState.types_start, TypeStore.lookup_remember, if_neg (h.ne_of_mem hin hu)] at hl
      have := h.closed.lookup_lt _ _ hl
      omega
    · rw [WalkState.size_start] at hle
      omega
  · intro i hne hi hnone'
    have hneq : ¬ (i = s.types.size ∧ i < s₁.types.size) := fun e => hne e.1
    rw [get?_settle, TypeStore.get?_fill, if_neg hneq]
    exact hnone'
  · intro i hi hnone'
    rw [size_settle, TypeStore.size_fill] at hi
    rw [get?_settle, TypeStore.get?_fill] at hnone'
    split at hnone'
    · cases hnone'
    · rename_i hne
      exact ⟨fun e => hne ⟨e, hi⟩, hi, hnone'⟩

/-- Everything on a stack leads to the innermost schema, step by step. -/
theorem reaches_head (hP : r.Ranges path P) (stack : List Visit) (u : Visit)
    (hholds : ∀ x ∈ u :: stack, P x)
    (hchain : (u :: stack).IsChain fun inner outer => r.Leads path outer inner) {y : Visit}
    (hy : y ∈ u :: stack) : Relation.ReflTransGen (r.Link path) y.node.key u.node.key := by
  induction stack generalizing u with
  | nil =>
      rw [List.mem_singleton.mp hy]
  | cons x rest ih =>
      rcases List.mem_cons.mp hy with rfl | hmem
      · exact Relation.ReflTransGen.refl
      · have hx : P x := hholds x (List.mem_cons_of_mem _ List.mem_cons_self)
        have hreach := ih x (fun z hz => hholds z (List.mem_cons_of_mem _ hz))
          (List.isChain_cons_cons.mp hchain).2 hmem
        exact hreach.tail ⟨x, u, hP.proper x hx, (List.isChain_cons_cons.mp hchain).1, rfl, rfl⟩

/-- What a schema below the innermost one tells when it has been resolved. -/
theorem marked (hP : r.Ranges path P) (h : r.Standing path P stack s) {c : Child}
    (hc : r.Admits path P stack c.visit) {id : Nat} (hfinds : r.Finds path s.types c id)
    {u : Visit} (hu : u ∈ stack.head?) :
    r.Marked path s.types u c (id, isConstituent (s.types.get? id)) := by
  obtain ⟨x, hx, hl⟩ := hfinds
  cases hget : s.types.get? id with
  | some t => exact Or.inl ⟨t, hget, rfl⟩
  | none =>
      rcases h.known _ _ hl with ⟨y, hy⟩ | ⟨_, y, hy, hkey, hcomp⟩
      · obtain ⟨t, ht⟩ := hy.meets.exists_get?
        rw [hget] at ht
        cases ht
      · have hkeys : x.node.key = y.node.key := congrArg MemoKey.schema hkey
        have houtline := outline_demand path (hP.proper x (hc.holds x hx))
          (hP.proper y (h.holds y hy)) hkeys
        have hxcomp : (r.demand path x).isComposite = true := by
          rw [← Demand.isComposite_outline, houtline, Demand.isComposite_outline]
          exact hcomp
        cases stack with
        | nil => cases hy
        | cons top rest =>
            cases hu
            refine Or.inr ⟨rfl, x, hx, hxcomp, ?_⟩
            rw [hkeys]
            exact reaches_head hP rest u h.holds h.chain hy

end Standing

/-- What the innermost schema on a stack leads to. -/
theorem Standing.admits (hP : r.Ranges path P) {w : Visit} {stack : List Visit} (hw : P w)
    {c : Child} (hc : c ∈ (r.demand path w).children) : r.Admits path P (w :: stack) c.visit where
  holds x hx := hP.leads w x hw ⟨c, hc, hx⟩
  leads x hx u hu := by
    cases hu
    exact ⟨c, hc, hx⟩

end Resolver

/-! ## Calls that succeed -/

/-- The visits of a call are those of the innermost schema on a stack. -/
def Call.Admitted (r : Resolver) (path : Option String) (P : Visit → Prop) (stack : List Visit) :
    Call → Prop
  | one v => r.Admits path P stack v
  | each cs => ∀ c ∈ cs, r.Admits path P stack c.visit

/-- What a call tells is remembered, and marked if it is about several schemas. -/
def Call.Told (r : Resolver) (path : Option String) (stack : List Visit) (s : TypeStore) :
    (c : Call) → c.Out → Prop
  | one v => fun id : Nat => ∃ w, r.enter v = .ok w ∧ s.lookup (r.keyOf path w) = some id
  | each cs => fun found : List (Nat × Bool) =>
      List.Forall₂ (fun c entry => r.Finds path s c entry.1 ∧
        ∀ u ∈ stack.head?, r.Marked path s u c entry) cs found

variable {r : Resolver} {path : Option String} {P : Visit → Prop} {depth : Nat} {c : Call}
  {s s' : WalkState} {out : Except Error c.Out}

/-- **A call that succeeds leaves behind what is met, and tells what is remembered.** -/
theorem Walked.standing (hP : r.Ranges path P) (h : Walked r path depth c s out s') {told : c.Out}
    (hok : out = .ok told) {stack : List Visit} (hs : r.Standing path P stack s)
    (hc : c.Admitted r path P stack) :
    r.Standing path P stack s' ∧ c.Told r path stack s'.types told := by
  induction h generalizing stack with
  | deep => cases hok
  | strayed hv => cases hok
  | found hv hl =>
      cases hok
      exact ⟨hs, _, hv, hl⟩
  | cyclic hv hl hp => cases hok
  | fault hin hd => cases hok
  | @block depth v w s inner last hin hd =>
      cases hok
      refine ⟨hs.settle_block hc hin hd, w, hin.enter_eq, ?_⟩
      rw [WalkState.types_withTypes, Resolver.lookup_settle, if_pos rfl]
  | wrapperFails hin hd _ ih => cases hok
  | @wrapper depth v w s s₁ item shape id hin hd hw ih =>
      cases hok
      have hdc : (r.demand path w).isComposite = false := by rw [hd]; rfl
      have hitem : item ∈ (r.demand path w).children := by
        rw [hd]
        exact List.mem_cons_self
      obtain ⟨hs₁, hfinds⟩ := ih rfl (hs.push hc hin hdc)
        (Resolver.Standing.admits hP (hc.holds w hin.enter_eq) hitem)
      have hkey : s₁.types.lookup (r.keyOf path w) = none :=
        hw.lookup_of_mem_pending List.mem_cons_self hin.lookup_eq
      refine ⟨hs.settle_wrapper hc hin hd hs₁ hkey hfinds, w, hin.enter_eq, ?_⟩
      rw [Resolver.types_settled, Resolver.lookup_settle, if_pos rfl]
  | compositeFails hin hd _ ih => cases hok
  | @composite depth v w s s₁ children shape found hin hd hw ih =>
      cases hok
      have hdc : (r.demand path w).isComposite = true := by rw [hd]; rfl
      obtain ⟨hs₁, hfound⟩ := ih rfl (hs.start hc hin hdc) fun c hmem =>
        Resolver.Standing.admits hP (hc.holds w hin.enter_eq) (hd ▸ hmem)
      have hmarked := hfound.imp fun c entry hentry => And.intro hentry.1 (hentry.2 w rfl)
      refine ⟨hs.settle_composite hc hin hd hs₁ hw.grows hmarked, w, hin.enter_eq, ?_⟩
      rw [Resolver.types_settled, Resolver.lookup_settle, if_pos rfl]
  | nil =>
      cases hok
      exact ⟨hs, List.Forall₂.nil⟩
  | headFails _ ih => cases hok
  | tailFails _ _ ih₁ ih₂ => cases hok
  | @cons depth c rest s s₁ s₂ id others _ hrest ih₁ ih₂ =>
      cases hok
      have hhead := hc c List.mem_cons_self
      obtain ⟨hs₁, hfinds⟩ := ih₁ rfl hs hhead
      obtain ⟨hs₂, hothers⟩ := ih₂ rfl hs₁ fun c' hc' => hc c' (List.mem_cons_of_mem _ hc')
      have hext : Extends s₁.types s₂.types := hrest.grows.extends
      refine ⟨hs₂, List.Forall₂.cons ⟨Resolver.Finds.extends hfinds hext, fun u hu => ?_⟩ hothers⟩
      exact (hs₁.marked hP hhead hfinds hu).extends hext

end ApiTypes
