import ApiTypes.Proofs.Walk.Calls

/-!
# What is remembered after failures

A schema is covered by a store in which all that it demands is remembered (`Resolver.Covers`), and
doomed if it leads to a schema for which nothing can be demanded, or to a reference that cannot be
followed (`Resolver.Doomed`). A call that succeeds covers what it remembers; one that fails, and not
because of a cycle, leaves slots behind for schemas that are doomed. So after requests of which
those that fail with a cycle store nothing, what is remembered is covered or doomed
(`Resolver.accounted_after`). A schema that a later call resolves is not doomed, so what is
remembered for it is covered (`Resolver.Accounted.coversShared`).
-/

set_option autoImplicit false

namespace ApiTypes

/-! ## What all visits of a call have in common -/

/-- All visits of a call have a property. -/
def Call.All (P : Visit → Prop) (c : Call) : Prop := ∀ v ∈ c.visits, P v

namespace Call.All

variable {P : Visit → Prop} {v : Visit} {c : Child} {rest : List Child}

theorem one_iff : (Call.one v).All P ↔ P v := List.forall_mem_singleton

theorem each_iff : (Call.each rest).All P ↔ ∀ c ∈ rest, P c.visit := List.forall_mem_map

theorem cons_iff :
    (Call.each (c :: rest)).All P ↔ (Call.one c.visit).All P ∧ (Call.each rest).All P := by
  rw [one_iff, each_iff, each_iff, List.forall_mem_cons]

theorem head (h : (Call.each (c :: rest)).All P) : (Call.one c.visit).All P := (cons_iff.mp h).1

theorem tail (h : (Call.each (c :: rest)).All P) : (Call.each rest).All P := (cons_iff.mp h).2

end Call.All

namespace Visit.Proper

variable {r : Resolver} {path : Option String} {v w : Visit} {c : Child}
  {cs : List Child} {shape : ModelType}

/-- What a proper visit is about is proper. -/
theorem entered (hv : (Call.one v).All (Visit.Proper r.description)) (hin : r.enter v = .ok w) :
    w.Proper r.description :=
  Resolver.proper_of_enter (Call.All.one_iff.mp hv) hin

/-- The schema that a proper one is around is proper. -/
theorem item (hd : r.description.Tidy) (hw : w.Proper r.description)
    (hdemand : r.demand path w = .wrapper c shape) :
    (Call.one c.visit).All (Visit.Proper r.description) := by
  have hc : c ∈ (r.demand path w).children := by
    rw [hdemand]
    exact List.mem_cons_self
  exact Call.All.one_iff.mpr (hw.child hd (Resolver.node_mem_of_demand hc))

/-- The schemas that a proper one is composed of are proper. -/
theorem children (hd : r.description.Tidy) (hw : w.Proper r.description)
    (hdemand : r.demand path w = .composite cs shape) :
    (Call.each cs).All (Visit.Proper r.description) := by
  refine Call.All.each_iff.mpr fun c hc => ?_
  have hc' : c ∈ (r.demand path w).children := by
    rw [hdemand]
    exact hc
  exact hw.child hd (Resolver.node_mem_of_demand hc')

/-- A use of a proper schema demands a proper one. -/
theorem useItem {use : Use} (hd : r.description.Tidy) (hw : w.Proper r.description)
    (hdemand : r.useDemand path use w = some (.wrapper c shape)) :
    (Call.one c.visit).All (Visit.Proper r.description) := by
  have hitems := Resolver.node_mem_of_useDemand hdemand List.mem_cons_self
  exact Call.All.one_iff.mpr (hw.child hd (SchemaNode.mem_children_items hitems))

end Visit.Proper

/-! ## Keys that are remembered -/

/-- Something is remembered under a key. -/
def TypeStore.Remembers (s : TypeStore) (key : MemoKey) : Prop := ∃ id, s.lookup key = some id

theorem TypeStore.not_remembers_iff {s : TypeStore} {key : MemoKey} :
    ¬ s.Remembers key ↔ s.lookup key = none := by
  rw [Remembers, Option.eq_none_iff_forall_not_mem]
  exact not_exists

theorem Grows.remembers {s s' : TypeStore} (h : Grows s s') {key : MemoKey}
    (hkey : s.Remembers key) : s'.Remembers key := by
  obtain ⟨id, hid⟩ := hkey
  exact ⟨id, h.lookup_eq key id hid⟩

/-- One schema more is remembered in a state than in another one. -/
structure WalkState.Adds (s : WalkState) (key : MemoKey) (s' : WalkState) : Prop where
  /-- The same schemas are being resolved, but for this one. -/
  pending_eq : s.pending = key :: s'.pending
  /-- This one is remembered, and what was remembered before. -/
  remembers_iff : ∀ other, s'.types.Remembers other ↔ other = key ∨ s.types.Remembers other

namespace WalkState

theorem Adds.new {s s' : WalkState} {key : MemoKey} (h : s.Adds key s') :
    s'.types.Remembers key :=
  (h.remembers_iff key).mpr (Or.inl rfl)

theorem Adds.old {s s' : WalkState} {key other : MemoKey} (h : s.Adds key s')
    (hother : s.types.Remembers other) : s'.types.Remembers other :=
  (h.remembers_iff other).mpr (Or.inr hother)

theorem pending_eq_of_pop {s : WalkState} {key : MemoKey} {pending : List MemoKey}
    (h : s.pending = key :: pending) : s.pending = key :: (s.pop key).pending := by
  rw [pending_pop, h, List.erase_cons_head]

theorem remembers_start (s : WalkState) (key other : MemoKey) :
    (s.start key).types.Remembers other ↔ other = key ∨ s.types.Remembers other := by
  rw [TypeStore.Remembers, types_start, TypeStore.lookup_remember]
  by_cases hother : other = key
  · simp [hother]
  · simp [hother, TypeStore.Remembers, TypeStore.lookup_reserve]

end WalkState

namespace Resolver

variable {r : Resolver} {path : Option String} {v w : Visit}

theorem remembers_settle (id : Nat) (types : TypeStore) (key : MemoKey) :
    (r.settle path w id types).Remembers key ↔ key = r.keyOf path w ∨ types.Remembers key := by
  rw [TypeStore.Remembers, lookup_settle]
  by_cases hkey : key = r.keyOf path w
  · simp [hkey]
  · simp [hkey, TypeStore.Remembers]

/-- What a use has for itself is remembered nowhere. -/
theorem remembers_owned {s : WalkState} {types : TypeStore}
    (hlookup : ∀ key, types.lookup key = s.types.lookup key) (id : TypeId) (key : MemoKey) :
    (r.owned path w id (s.withTypes types)).types.Remembers key ↔ s.types.Remembers key := by
  rw [types_owned, TypeStore.Remembers, TypeStore.lookup_annotateAll, WalkState.types_withTypes,
    hlookup]
  rfl

/-- A schema is settled that was being resolved. -/
theorem adds_settled {s₁ : WalkState} {types : TypeStore} {pending : List MemoKey}
    (hpending : s₁.pending = r.keyOf path w :: pending)
    (hlookup : ∀ key, types.lookup key = s₁.types.lookup key) (id : Nat) :
    s₁.Adds (r.keyOf path w) (r.settled path w id (s₁.withTypes types)) where
  pending_eq := by
    rw [pending_settled, WalkState.pending_withTypes, hpending, List.erase_cons_head]
  remembers_iff key := by
    rw [types_settled, remembers_settle, WalkState.types_withTypes, TypeStore.Remembers,
      TypeStore.Remembers, hlookup]

/-- A schema around another one is settled on a new slot. -/
theorem adds_wrapper {s₁ : WalkState} {pending : List MemoKey}
    (hpending : s₁.pending = r.keyOf path w :: pending) (t : ModelType) :
    s₁.Adds (r.keyOf path w)
      (r.settled path w s₁.types.size (s₁.withTypes (s₁.types.add t).2)) :=
  adds_settled hpending (fun _ => TypeStore.lookup_add ..) _

/-- A schema with a reserved slot is settled on it. -/
theorem adds_composite {s₁ : WalkState} {pending : List MemoKey}
    (hpending : s₁.pending = r.keyOf path w :: pending) (id : Nat) (t : ModelType) :
    s₁.Adds (r.keyOf path w) (r.settled path w id (s₁.withTypes (s₁.types.fill id t))) :=
  adds_settled hpending (fun _ => TypeStore.lookup_fill ..) _

/-- A schema is settled at once. -/
theorem adds_block (s : WalkState) (id : Nat) (inner : List ModelType) (last : ModelType) :
    (s.push (r.keyOf path w)).Adds (r.keyOf path w)
      (s.withTypes (r.settle path w id (s.types.addBlock inner last).2)) where
  pending_eq := rfl
  remembers_iff key := by
    rw [WalkState.types_withTypes, remembers_settle, TypeStore.Remembers, TypeStore.lookup_addBlock]
    rfl

/-! ## Schemas that are covered, and schemas that are doomed -/

/-- What a visit is about is remembered. -/
def Found (r : Resolver) (path : Option String) (s : TypeStore) (v : Visit) : Prop :=
  ∃ w, r.enter v = .ok w ∧ s.Remembers (r.keyOf path w)

/-- A schema of which something can be demanded, and all that it demands is remembered. -/
structure Covers (r : Resolver) (path : Option String) (s : TypeStore) (w : Visit) : Prop where
  /-- Something can be demanded. -/
  not_fault : ∀ e, ¬ r.demand path w = .fault e
  /-- The schemas that it demands are remembered. -/
  found : ∀ c ∈ (r.demand path w).children, r.Found path s c.visit

/-- A schema for which nothing can be demanded, or that demands a reference that cannot be followed
or a schema that is doomed. -/
inductive Doomed (r : Resolver) (path : Option String) : Visit → Prop
  | fault {w : Visit} {e : Error} : r.demand path w = .fault e → Doomed r path w
  | child {w : Visit} {c : Child} : c ∈ (r.demand path w).children →
      (∀ x, r.enter c.visit = .ok x → Doomed r path x) → Doomed r path w

variable {s s' : TypeStore}

theorem Found.mono (h : r.Found path s v) (hs : ∀ key, s.Remembers key → s'.Remembers key) :
    r.Found path s' v := by
  obtain ⟨w, hin, hkey⟩ := h
  exact ⟨w, hin, hs _ hkey⟩

theorem Covers.mono (h : r.Covers path s w) (hs : ∀ key, s.Remembers key → s'.Remembers key) :
    r.Covers path s' w where
  not_fault := h.not_fault
  found c hc := (h.found c hc).mono hs

/-- What a visit is about that is found is remembered. -/
theorem Found.remembers (h : (Call.one v).All (r.Found path s)) (hin : r.enter v = .ok w) :
    s.Remembers (r.keyOf path w) := by
  obtain ⟨x, hx, hkey⟩ := Call.All.one_iff.mp h
  cases hin.symm.trans hx
  exact hkey

theorem covers_of_block {inner : List ModelType} {last : ModelType}
    (hd : r.demand path w = .block inner last) : r.Covers path s w where
  not_fault e he := by cases hd.symm.trans he
  found c hc := by
    rw [hd] at hc
    cases hc

theorem covers_of_item {item : Child} {shape : ModelType}
    (hd : r.demand path w = .wrapper item shape) (h : (Call.one item.visit).All (r.Found path s)) :
    r.Covers path s w where
  not_fault e he := by cases hd.symm.trans he
  found c hc := by
    rw [hd] at hc
    rw [List.mem_singleton.mp hc]
    exact Call.All.one_iff.mp h

theorem covers_of_children {children : List Child} {shape : ModelType}
    (hd : r.demand path w = .composite children shape)
    (h : (Call.each children).All (r.Found path s)) : r.Covers path s w where
  not_fault e he := by cases hd.symm.trans he
  found c hc := by
    rw [hd] at hc
    exact Call.All.each_iff.mp h c hc

theorem Covers.item (h : r.Covers path s w) {item : Child} {shape : ModelType}
    (hd : r.demand path w = .wrapper item shape) :
    (Call.one item.visit).All (r.Found path s) :=
  Call.All.one_iff.mpr (h.found item (hd.symm ▸ List.mem_cons_self))

theorem Covers.children (h : r.Covers path s w) {children : List Child} {shape : ModelType}
    (hd : r.demand path w = .composite children shape) :
    (Call.each children).All (r.Found path s) :=
  Call.All.each_iff.mpr fun c hc => h.found c (hd.symm ▸ hc)

theorem found_scope (path : Option String) : r.Found (r.scopeOf path) = r.Found path := by
  funext s v
  simp only [Found, keyOf_scope]

theorem covers_scope (path : Option String) :
    r.Covers (r.scopeOf path) s w ↔ r.Covers path s w := by
  constructor
  · rintro ⟨hfault, hfound⟩
    rw [demand_scope] at hfault hfound
    rw [found_scope] at hfound
    exact ⟨hfault, hfound⟩
  · rintro ⟨hfault, hfound⟩
    refine ⟨?_, ?_⟩
    · rw [demand_scope]
      exact hfault
    · rw [demand_scope, found_scope]
      exact hfound

/-- Schemas of one key are alike in that they are covered. -/
theorem Covers.of_node_key_eq (h : r.Covers path s v) (hv : v.Proper r.description)
    (hw : w.Proper r.description) (hkey : v.node.key = w.node.key) : r.Covers path s w where
  not_fault e hd := by
    obtain ⟨e', hd'⟩ := fault_of_key_eq hd hw hv hkey.symm
    exact h.not_fault e' hd'
  found c hc := by
    -- The two demand schemas at the same nodes; only the names of these may differ, and no name
    -- is part of a key.
    have hnodes := congrArg Demand.Outline.nodes (outline_demand path hv hw hkey)
    rw [Demand.nodes_outline, Demand.nodes_outline] at hnodes
    have hmem : c.node ∈ (r.demand path v).children.map Child.node := by
      rw [hnodes]
      exact List.mem_map_of_mem hc
    obtain ⟨c', hc', hnode⟩ := List.mem_map.mp hmem
    obtain ⟨x, hin, hx⟩ := h.found c' hc'
    have hsame : c'.visit.node = c.visit.node := hnode
    obtain ⟨x', hin', hx'⟩ := enter_of_node_eq hsame hin
    refine ⟨x', hin', ?_⟩
    rw [keyOf_eq, hx']
    exact hx

/-- Schemas that are remembered under one key are alike in that they are covered. -/
theorem Covers.of_keyOf_eq {path' : Option String} (h : r.Covers path s v)
    (hv : v.Proper r.description) (hw : w.Proper r.description)
    (hkey : r.keyOf path v = r.keyOf path' w) : r.Covers path' s w := by
  obtain ⟨hscope, hnode⟩ := MemoKey.mk.inj hkey
  have hscope' : r.scopeOf path = r.scopeOf path' := hscope
  rw [← covers_scope, ← hscope', covers_scope]
  exact h.of_node_key_eq hv hw hnode

/-- A store covers what it remembers together with another one. -/
def CoversShared (r : Resolver) (path : Option String) (s other : TypeStore) : Prop :=
  ∀ w : Visit, w.Proper r.description → s.Remembers (r.keyOf path w) →
    other.Remembers (r.keyOf path w) → r.Covers path s w

namespace CoversShared

variable {other other' : TypeStore}

theorem mono (h : r.CoversShared path s other)
    (hother : ∀ key, other'.Remembers key → other.Remembers key) : r.CoversShared path s other' :=
  fun w hw hkey hkey' => h w hw hkey (hother _ hkey')

theorem of_self (h : r.CoversShared path s s) (other : TypeStore) : r.CoversShared path s other :=
  fun w hw hkey _ => h w hw hkey hkey

/-- Where everything is covered, nothing that is remembered is doomed. -/
theorem not_doomed (hd : r.description.Tidy) (h : r.CoversShared path s s)
    (hw : w.Proper r.description) (hkey : s.Remembers (r.keyOf path w)) : ¬ r.Doomed path w := by
  intro hdoomed
  -- Along the way to the failure each schema is remembered, since the one before it is covered.
  induction hdoomed with
  | fault hdemand => exact (h _ hw hkey hkey).not_fault _ hdemand
  | @child w c hc _ ih =>
      obtain ⟨x, hin, hx⟩ := (h w hw hkey hkey).found c hc
      exact ih x hin (proper_of_enter (hw.child hd (node_mem_of_demand hc)) hin) hx

end CoversShared

/-- **Where everything that is remembered is met, it is covered.** -/
theorem Settled.coversShared {s : WalkState} (hs : r.Settled (Visit.Proper r.description) s)
    (path : Option String) : r.CoversShared path s.types s.types := by
  rintro w hw ⟨id, hl⟩ _
  -- The schema that the slot was filled for has the same key, but may be another one.
  obtain ⟨y, hy⟩ := hs.known _ _ hl
  refine @Covers.of_keyOf_eq r (r.keyOf path w).scope y w s.types path ?_ hy.holds hw hy.key_eq
  refine ⟨fun e => hy.meets.not_fault, fun c hc => ?_⟩
  obtain ⟨i, x, hin, hx⟩ := hy.meets.finds hc
  exact ⟨x, hin, i, hx⟩

end Resolver

/-! ## What calls tell of -/

namespace Walked

variable {r : Resolver} {path : Option String} {depth : Nat} {c : Call} {s s' : WalkState}
  {out : Except Error c.Out}

/-- A call that succeeds leaves remembered what it is about. -/
theorem found_visits (h : Walked r path depth c s out s') {told : c.Out} (hok : out = .ok told) :
    c.All (r.Found path s'.types) := by
  induction h with
  | deep => cases hok
  | strayed hv => cases hok
  | found hv hl => exact Call.All.one_iff.mpr ⟨_, hv, _, hl⟩
  | cyclic hv hl hp => cases hok
  | fault hin hd => cases hok
  | block hin hd =>
      exact Call.All.one_iff.mpr ⟨_, hin.enter_eq, (Resolver.adds_block ..).new⟩
  | wrapperFails hin hd _ ih => cases hok
  | wrapper hin hd hcall ih =>
      exact Call.All.one_iff.mpr ⟨_, hin.enter_eq, (Resolver.adds_wrapper hcall.pending_eq _).new⟩
  | compositeFails hin hd _ ih => cases hok
  | composite hin hd hcall ih =>
      exact Call.All.one_iff.mpr
        ⟨_, hin.enter_eq, (Resolver.adds_composite hcall.pending_eq _ _).new⟩
  | nil => exact fun _ hv => by cases hv
  | headFails _ ih => cases hok
  | tailFails _ _ ih₁ ih₂ => cases hok
  | cons _ hrest ih₁ ih₂ =>
      exact Call.All.cons_iff.mpr
        ⟨fun v hv => (ih₁ rfl v hv).mono fun _ => hrest.grows.remembers, ih₂ rfl⟩

/-- A call that fails, and not because of a cycle, is about a schema that is doomed, or about a
reference that cannot be followed. -/
theorem doomed (h : Walked r path depth c s out s') {e : Error} (he : out = .error e)
    (hplain : e.Plain) : ∃ v ∈ c.visits, ∀ w, r.enter v = .ok w → r.Doomed path w := by
  induction h with
  | deep =>
      cases he
      exact absurd hplain id
  | strayed hv =>
      -- Nothing is entered there.
      refine ⟨_, List.mem_cons_self, fun w hw => ?_⟩
      cases hv.symm.trans hw
  | found hv hl => cases he
  | cyclic hv hl hp =>
      cases he
      exact absurd hplain id
  | fault hin hd =>
      refine ⟨_, List.mem_cons_self, fun w hw => ?_⟩
      cases hin.enter_eq.symm.trans hw
      exact .fault hd
  | block hin hd => cases he
  | @wrapperFails depth v w s s₁ item shape e hin hd _ ih =>
      cases he
      obtain ⟨x, hx, hdoomed⟩ := ih rfl
      cases List.mem_singleton.mp hx
      refine ⟨v, List.mem_cons_self, fun y hy => ?_⟩
      cases hin.enter_eq.symm.trans hy
      refine .child ?_ hdoomed
      rw [hd]
      exact List.mem_cons_self
  | wrapper hin hd _ ih => cases he
  | @compositeFails depth v w s s₁ children shape e hin hd _ ih =>
      cases he
      obtain ⟨x, hx, hdoomed⟩ := ih rfl
      obtain ⟨child, hchild, rfl⟩ := List.mem_map.mp hx
      refine ⟨v, List.mem_cons_self, fun y hy => ?_⟩
      cases hin.enter_eq.symm.trans hy
      refine .child ?_ hdoomed
      rw [hd]
      exact hchild
  | composite hin hd _ ih => cases he
  | nil => cases he
  | headFails _ ih =>
      cases he
      obtain ⟨x, hx, hdoomed⟩ := ih rfl
      exact ⟨x, List.mem_cons.mpr (Or.inl (List.mem_singleton.mp hx)), hdoomed⟩
  | tailFails _ _ ih₁ ih₂ =>
      cases he
      obtain ⟨x, hx, hdoomed⟩ := ih₂ rfl
      exact ⟨x, List.mem_cons_of_mem _ hx, hdoomed⟩
  | cons _ _ ih₁ ih₂ => cases he

end Walked

/-! ## Calls and requests -/

/-- A result that is no error but a plain one. -/
def FailsPlainly {α : Type} (out : Except Error α) : Prop := ∀ e, out = .error e → e.Plain

namespace FailsPlainly

variable {α : Type} {e : Error}

theorem ok (a : α) : FailsPlainly (.ok a) := by
  intro e he
  cases he

theorem error (h : e.Plain) : FailsPlainly (.error e : Except Error α) := by
  intro e' he
  cases he
  exact h

theorem plain (h : FailsPlainly (.error e : Except Error α)) : e.Plain := h e rfl

end FailsPlainly

namespace Resolver

/-- Why something is remembered under a key: a schema of the key is covered, or doomed. -/
def Explains (r : Resolver) (types : TypeStore) (key : MemoKey) : Prop :=
  ∃ path y, y.Proper r.description ∧ r.keyOf path y = key ∧
    (r.Covers path types y ∨ r.Doomed path y)

/-- A state in which everything that is remembered is explained or being resolved. -/
def Accounted (r : Resolver) (s : WalkState) : Prop :=
  ∀ key, s.types.Remembers key → key ∈ s.pending ∨ r.Explains s.types key

variable {r : Resolver} {path : Option String} {s s' s₁ : WalkState} {w : Visit}

theorem Explains.mono {types types' : TypeStore} {key : MemoKey} (h : r.Explains types key)
    (hs : ∀ other, types.Remembers other → types'.Remembers other) : r.Explains types' key := by
  obtain ⟨path, y, hy, hkey, hwhy⟩ := h
  exact ⟨path, y, hy, hkey, hwhy.imp_left fun hcovers => hcovers.mono hs⟩

theorem Settled.accounted (hs : r.Settled (Visit.Proper r.description) s) : r.Accounted s := by
  intro key hkey
  obtain ⟨id, hl⟩ := hkey
  obtain ⟨y, hy⟩ := hs.known key id hl
  have hremembers : s.types.Remembers (r.keyOf key.scope y) := ⟨id, by rw [hy.key_eq]; exact hl⟩
  have hcovers := hs.coversShared key.scope y hy.holds hremembers hremembers
  exact Or.inr ⟨key.scope, y, hy.holds, hy.key_eq, Or.inl hcovers⟩

namespace Accounted

/-- The same may be remembered in another store. -/
theorem of_remembers_iff (h : r.Accounted s) (hpending : s'.pending = s.pending)
    (hkeys : ∀ key, s'.types.Remembers key ↔ s.types.Remembers key) : r.Accounted s' := by
  intro key hkey
  rw [hpending]
  exact (h key ((hkeys key).mp hkey)).imp_right fun hwhy => hwhy.mono fun other => (hkeys other).mpr

theorem push (h : r.Accounted s) (key : MemoKey) : r.Accounted (s.push key) := by
  intro other hother
  exact (h other hother).imp_left (List.mem_cons_of_mem _)

theorem start (h : r.Accounted s) (key : MemoKey) : r.Accounted (s.start key) := by
  intro other hother
  rcases (s.remembers_start key other).mp hother with rfl | hold
  · exact Or.inl List.mem_cons_self
  · refine (h other hold).imp (List.mem_cons_of_mem _) fun hwhy => hwhy.mono fun k hk => ?_
    exact (s.remembers_start key k).mpr (Or.inr hk)

/-- A schema is resolved no longer that is explained if it is remembered. -/
theorem leave {key : MemoKey} (h : r.Accounted s₁) (hpending : s₁.pending = key :: s'.pending)
    (hnew : ∀ other, s'.types.Remembers other → other = key ∨ s₁.types.Remembers other)
    (hold : ∀ other, s₁.types.Remembers other → s'.types.Remembers other)
    (hwhy : s'.types.Remembers key → r.Explains s'.types key) : r.Accounted s' := by
  intro other hother
  by_cases heq : other = key
  · exact Or.inr (heq ▸ hwhy (heq ▸ hother))
  · rcases h other ((hnew other hother).resolve_left heq) with hmem | hwhy'
    · rw [hpending] at hmem
      exact Or.inl ((List.mem_cons.mp hmem).resolve_left heq)
    · exact Or.inr (hwhy'.mono hold)

/-- A schema is settled that is covered. -/
theorem adds (h : r.Accounted s₁) (hadds : s₁.Adds (r.keyOf path w) s')
    (hw : w.Proper r.description) (hcovers : r.Covers path s₁.types w) : r.Accounted s' := by
  have hold : ∀ key, s₁.types.Remembers key → s'.types.Remembers key := fun _ => hadds.old
  exact h.leave hadds.pending_eq (fun key => (hadds.remembers_iff key).mp) hold
    fun _ => ⟨path, w, hw, rfl, Or.inl (hcovers.mono hold)⟩

/-- A schema is given up. -/
theorem pop {key : MemoKey} {pending : List MemoKey} (h : r.Accounted s₁)
    (hpending : s₁.pending = key :: pending)
    (hwhy : s₁.types.Remembers key → r.Explains s₁.types key) : r.Accounted (s₁.pop key) :=
  h.leave (WalkState.pending_eq_of_pop hpending) (fun _ => Or.inr) (fun _ hold => hold) hwhy

/-- **What is remembered together with a state in which everything is met is covered.** -/
theorem coversShared (hd : r.description.Tidy) (h : r.Accounted s) (hpending : s.pending = [])
    (hs' : r.Settled (Visit.Proper r.description) s') (path : Option String) :
    r.CoversShared path s.types s'.types := by
  intro w hw hkey hkey'
  rcases h _ hkey with hmem | ⟨path', y, hy, hkeyOf, hcovers | hdoomed⟩
  · rw [hpending] at hmem
    cases hmem
  · exact hcovers.of_keyOf_eq hy hw hkeyOf
  · -- A schema that leads to a failure has not been met.
    rw [← hkeyOf] at hkey'
    exact absurd hdoomed ((hs'.coversShared path').not_doomed hd hy hkey')

end Accounted

end Resolver

/-- **A call that succeeds, or fails and not because of a cycle, keeps everything explained.** -/
theorem Walked.accounted {r : Resolver} {path : Option String} {depth : Nat} {c : Call}
    {s s' : WalkState} {out : Except Error c.Out} (hd : r.description.Tidy)
    (h : Walked r path depth c s out s') (hplain : FailsPlainly out)
    (hc : c.All (Visit.Proper r.description)) (hs : r.Accounted s) : r.Accounted s' := by
  induction h with
  | deep => exact hs
  | strayed hv => exact hs
  | found hv hl => exact hs
  | cyclic hv hl hp => exact hs
  | fault hin hdemand => exact hs
  | @block depth v w s inner last hin hdemand =>
      exact (hs.push _).adds (Resolver.adds_block s _ inner last) (.entered hc hin.enter_eq)
        (Resolver.covers_of_block hdemand)
  | @wrapperFails depth v w s s₁ item shape e hin hdemand hcall ih =>
      have hw := Visit.Proper.entered hc hin.enter_eq
      have hs₁ := ih (.error hplain.plain) (hw.item hd hdemand) (hs.push _)
      -- A schema around another one is not remembered before it is settled.
      have hnone := hcall.lookup_of_mem_pending List.mem_cons_self hin.lookup_eq
      exact hs₁.pop hcall.pending_eq fun hkey =>
        absurd hkey (TypeStore.not_remembers_iff.mpr hnone)
  | @wrapper depth v w s s₁ item shape id hin hdemand hcall ih =>
      have hw := Visit.Proper.entered hc hin.enter_eq
      have hs₁ := ih (.ok id) (hw.item hd hdemand) (hs.push _)
      exact hs₁.adds (Resolver.adds_wrapper hcall.pending_eq _) hw
        (Resolver.covers_of_item hdemand (hcall.found_visits rfl))
  | @compositeFails depth v w s s₁ children shape e hin hdemand hcall ih =>
      have hw := Visit.Proper.entered hc hin.enter_eq
      have hs₁ := ih (.error hplain.plain) (hw.children hd hdemand) (hs.start _)
      refine hs₁.pop hcall.pending_eq fun _ => ⟨path, w, hw, rfl, Or.inr ?_⟩
      -- Its slot stays, and leads to what the call failed at.
      obtain ⟨x, hx, hdoomed⟩ := hcall.doomed rfl hplain.plain
      obtain ⟨child, hchild, rfl⟩ := List.mem_map.mp hx
      exact .child (hdemand.symm ▸ hchild) hdoomed
  | @composite depth v w s s₁ children shape found hin hdemand hcall ih =>
      have hw := Visit.Proper.entered hc hin.enter_eq
      have hs₁ := ih (.ok found) (hw.children hd hdemand) (hs.start _)
      exact hs₁.adds (Resolver.adds_composite hcall.pending_eq _ _) hw
        (Resolver.covers_of_children hdemand (hcall.found_visits rfl))
  | nil => exact hs
  | headFails _ ih => exact ih (.error hplain.plain) hc.head hs
  | tailFails _ _ ih₁ ih₂ =>
      exact ih₂ (.error hplain.plain) hc.tail (ih₁ (.ok _) hc.head hs)
  | cons _ _ ih₁ ih₂ => exact ih₂ (.ok _) hc.tail (ih₁ (.ok _) hc.head hs)

/-- **A request that succeeds, or fails and not because of a cycle, keeps everything explained.** -/
theorem Answered.accounted {r : Resolver} {q : Request} {s s' : WalkState}
    {out : Except Error Resolved} (hd : r.description.Tidy) (h : Answered r q s out s')
    (hplain : FailsPlainly out) (hq : q.Proper r.description) (hs : r.Accounted s) :
    r.Accounted s' := by
  have hv := Call.All.one_iff.mpr (hq.visit hd)
  cases h with
  | component h => exact h.accounted hd (.ok _) hv hs
  | componentFails h => exact h.accounted hd (.error hplain.plain) hv hs
  | strayed hin => exact hs
  | shared hin _ h => exact h.accounted hd (.ok _) (Call.All.one_iff.mpr (.entered hv hin)) hs
  | sharedFails hin _ h =>
      exact h.accounted hd (.error hplain.plain) (Call.All.one_iff.mpr (.entered hv hin)) hs
  | fault hin _ => exact hs
  | block hin _ =>
      exact hs.of_remembers_iff rfl
        (Resolver.remembers_owned (fun _ => TypeStore.lookup_addBlock ..) _)
  | wrapper hin hdemand h =>
      have hs₁ := h.accounted hd (.ok _) ((Visit.Proper.entered hv hin).useItem hd hdemand) hs
      exact hs₁.of_remembers_iff rfl
        (Resolver.remembers_owned (fun _ => TypeStore.lookup_add ..) _)
  | wrapperFails hin hdemand h =>
      exact h.accounted hd (.error hplain.plain)
        ((Visit.Proper.entered hv hin).useItem hd hdemand) hs

/-- A request that fails does so because of a cycle, or plainly. -/
theorem Answered.plain_or_cycle {r : Resolver} {q : Request} {s s' : WalkState} {e : Error}
    (h : Answered r q s (.error e) s') : e.Plain ∨ ∃ location, e = .cyclicReference location := by
  cases e with
  | cyclicReference location => exact Or.inr ⟨location, rfl⟩
  | tooDeep text => exact absurd rfl (h.ne_tooDeep text)
  | _ => exact Or.inl trivial

/-! ## Requests one after the other -/

namespace Resolver

/-- The requests that fail with a cycle store nothing. -/
def CyclesHarmless (r : Resolver) (qs : List Request) (s : WalkState) : Prop :=
  ∀ before q rest location, qs = before ++ q :: rest →
    ((r.ask q).outcome (r.after before s)).1 = .error (.cyclicReference location) →
    ((r.ask q).outcome (r.after before s)).2 = r.after before s

variable {r : Resolver} {s : WalkState} {qs : List Request}

theorem Harmless.cyclesHarmless (h : r.Harmless qs s) : r.CyclesHarmless qs s :=
  fun before q rest _ heq hfails => h before q rest _ heq hfails

theorem CyclesHarmless.tail {q : Request} (h : r.CyclesHarmless (q :: qs) s) :
    r.CyclesHarmless qs ((r.ask q).outcome s).2 := by
  intro before p rest location heq hfails
  exact h (q :: before) p rest location (by rw [heq]; rfl) hfails

theorem grows_after (qs : List Request) (s : WalkState) : Grows s.types (r.after qs s).types :=
  after_invariant (I := fun state => Grows s.types state.types)
    (fun _ _ _ _ hans hgrows => hgrows.trans hans.grows) qs (Grows.refl _)

theorem pending_after (qs : List Request) (s : WalkState) : (r.after qs s).pending = s.pending :=
  after_invariant (I := fun state => state.pending = s.pending)
    (fun _ _ _ _ hans heq => hans.pending_eq.trans heq) qs rfl

/-- **After requests of which those that fail with a cycle store nothing, everything that is
remembered is explained.** -/
theorem accounted_after (hd : r.description.Tidy) (hqs : ∀ q ∈ qs, q.Proper r.description)
    (hharmless : r.CyclesHarmless qs s) (hs : r.Accounted s) : r.Accounted (r.after qs s) := by
  induction qs generalizing s with
  | nil => exact hs
  | cons q rest ih =>
      refine ih (fun p hp => hqs p (List.mem_cons_of_mem _ hp)) hharmless.tail ?_
      have hans := answered_ask (r := r) q s
      have hq := hqs q List.mem_cons_self
      cases hout : ((r.ask q).outcome s).1 with
      | ok told =>
          rw [hout] at hans
          exact hans.accounted hd (.ok told) hq hs
      | error e =>
          rw [hout] at hans
          rcases hans.plain_or_cycle with hplain | ⟨location, rfl⟩
          · exact hans.accounted hd (.error hplain) hq hs
          · -- Slots that it had reserved would be neither covered nor doomed.
            have hsame : ((r.ask q).outcome s).2 = s := hharmless [] q rest location rfl hout
            rw [hsame]
            exact hs

end Resolver

end ApiTypes
