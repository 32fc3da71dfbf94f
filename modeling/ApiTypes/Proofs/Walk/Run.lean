import ApiTypes.Proofs.Walk.Meeting

/-!
# Runs of the walk

`Walked` relates a call, the state that it starts from, how it ends and the state that it leaves
behind, with one constructor for each way in which a call can go. The depth counts the nested
calls that are still allowed; depth and state determine the rest. The relation is the walk that
runs (`Resolver.walked_resolveVisit`, `Walked.ending_eq`), and inductions about the walk are
inductions on it.
-/

set_option autoImplicit false

namespace ApiTypes

namespace WalkState

/-- The state with other types. -/
def withTypes (s : WalkState) (types : TypeStore) : WalkState := { s with types }

/-- The state in which a schema is being resolved. -/
def push (s : WalkState) (key : MemoKey) : WalkState := { s with pending := key :: s.pending }

/-- The state in which a schema is being resolved no longer. -/
def pop (s : WalkState) (key : MemoKey) : WalkState :=
  { s with pending := s.pending.erase key }

/-- The state in which a schema is being resolved and its slot may be found. -/
def start (s : WalkState) (key : MemoKey) : WalkState where
  types := s.types.reserve.2.remember key s.types.size
  pending := key :: s.pending

@[simp] theorem types_withTypes (s : WalkState) (types : TypeStore) :
    (s.withTypes types).types = types := rfl

@[simp] theorem pending_withTypes (s : WalkState) (types : TypeStore) :
    (s.withTypes types).pending = s.pending := rfl

@[simp] theorem types_push (s : WalkState) (key : MemoKey) : (s.push key).types = s.types := rfl

@[simp] theorem types_pop (s : WalkState) (key : MemoKey) : (s.pop key).types = s.types := rfl

@[simp] theorem pending_push (s : WalkState) (key : MemoKey) :
    (s.push key).pending = key :: s.pending := rfl

@[simp] theorem pending_pop (s : WalkState) (key : MemoKey) :
    (s.pop key).pending = s.pending.erase key := rfl

@[simp] theorem pending_start (s : WalkState) (key : MemoKey) :
    (s.start key).pending = key :: s.pending := rfl

@[simp] theorem types_start (s : WalkState) (key : MemoKey) :
    (s.start key).types = s.types.reserve.2.remember key s.types.size := rfl

@[simp] theorem pop_push (s : WalkState) (key : MemoKey) : (s.push key).pop key = s := by
  cases s with
  | mk types pending => simp [push, pop]

end WalkState

namespace Resolver

variable (r : Resolver) (path : Option String)

/-- The visit that a visit is about: a reference is followed to the component that it leads to,
which has a name of its own. -/
def enter (v : Visit) : Except Error Visit :=
  match r.description.dereference v.node with
  | .error e => .error e
  | .ok (some (target, component)) => .ok ⟨target, component, true⟩
  | .ok none => .ok v

/-- What the resolution of a visit is remembered under. -/
def keyOf (v : Visit) : MemoKey := r.memoKey path v.node.key

/-- The store in which a schema is remembered and annotated. -/
def settle (v : Visit) (id : TypeId) (types : TypeStore) : TypeStore :=
  (types.remember (r.keyOf path v) id).annotateAll id (r.nodeAnnotations path v.node v.features)

/-- The state in which a schema is resolved. -/
def settled (v : Visit) (id : TypeId) (s : WalkState) : WalkState where
  types := r.settle path v id s.types
  pending := s.pending.erase (r.keyOf path v)

/-- A visit gets as far as the demand of a schema. -/
structure Enters (v : Visit) (s : WalkState) (w : Visit) : Prop where
  /-- The visit is about the schema. -/
  enter_eq : r.enter v = .ok w
  /-- The schema was not resolved before. -/
  lookup_eq : s.types.lookup (r.keyOf path w) = none
  /-- The schema is not being resolved. -/
  notMem : r.keyOf path w ∉ s.pending

end Resolver

/-- What the walk is called for: one schema, or several one after the other. -/
inductive Call where
  /-- One schema. -/
  | one (v : Visit)
  /-- Several schemas. -/
  | each (cs : List Child)

/-- The visits that a call begins with. -/
def Call.visits : Call → List Visit
  | one v => [v]
  | each cs => cs.map Child.visit

/-- What a call tells: the number of a type, or of several types, each with a mark whether it may
be a constituent. -/
def Call.Out : Call → Type
  | one _ => TypeId
  | each _ => List (TypeId × Bool)

/-- How a call ends and what it leaves behind. -/
inductive Walked (r : Resolver) (path : Option String) :
    Nat → (c : Call) → WalkState → Except Error c.Out → WalkState → Prop
  | deep {v : Visit} {s : WalkState} :
      Walked r path 0 (.one v) s (.error (.tooDeep v.node.key.text)) s
  | strayed {depth : Nat} {v : Visit} {s : WalkState} {e : Error} :
      r.enter v = .error e → Walked r path (depth + 1) (.one v) s (.error e) s
  | found {depth : Nat} {v w : Visit} {s : WalkState} {id : TypeId} :
      r.enter v = .ok w → s.types.lookup (r.keyOf path w) = some id →
      Walked r path (depth + 1) (.one v) s (.ok id) s
  | cyclic {depth : Nat} {v w : Visit} {s : WalkState} :
      r.enter v = .ok w → s.types.lookup (r.keyOf path w) = none →
      r.keyOf path w ∈ s.pending →
      Walked r path (depth + 1) (.one v) s (.error (.cyclicReference w.node.key.text)) s
  | fault {depth : Nat} {v w : Visit} {s : WalkState} {e : Error} :
      r.Enters path v s w → r.demand path w = .fault e →
      Walked r path (depth + 1) (.one v) s (.error e) s
  | block {depth : Nat} {v w : Visit} {s : WalkState} {inner : List ModelType}
      {last : ModelType} :
      r.Enters path v s w → r.demand path w = .block inner last →
      Walked r path (depth + 1) (.one v) s (.ok (s.types.size + inner.length))
        (s.withTypes
          (r.settle path w (s.types.size + inner.length) (s.types.addBlock inner last).2))
  | wrapperFails {depth : Nat} {v w : Visit} {s s₁ : WalkState} {item : Child}
      {shape : ModelType} {e : Error} :
      r.Enters path v s w → r.demand path w = .wrapper item shape →
      Walked r path depth (.one item.visit) (s.push (r.keyOf path w)) (.error e) s₁ →
      Walked r path (depth + 1) (.one v) s (.error e) (s₁.pop (r.keyOf path w))
  | wrapper {depth : Nat} {v w : Visit} {s s₁ : WalkState} {item : Child}
      {shape : ModelType} {id : TypeId} :
      r.Enters path v s w → r.demand path w = .wrapper item shape →
      Walked r path depth (.one item.visit) (s.push (r.keyOf path w)) (.ok id) s₁ →
      Walked r path (depth + 1) (.one v) s (.ok s₁.types.size)
        (r.settled path w s₁.types.size
          (s₁.withTypes (s₁.types.add (shape.rename fun _ => id)).2))
  | compositeFails {depth : Nat} {v w : Visit} {s s₁ : WalkState} {children : List Child}
      {shape : ModelType} {e : Error} :
      r.Enters path v s w → r.demand path w = .composite children shape →
      Walked r path depth (.each children) (s.start (r.keyOf path w)) (.error e) s₁ →
      Walked r path (depth + 1) (.one v) s (.error e) (s₁.pop (r.keyOf path w))
  | composite {depth : Nat} {v w : Visit} {s s₁ : WalkState} {children : List Child}
      {shape : ModelType} {found : List (TypeId × Bool)} :
      r.Enters path v s w → r.demand path w = .composite children shape →
      Walked r path depth (.each children) (s.start (r.keyOf path w)) (.ok found) s₁ →
      Walked r path (depth + 1) (.one v) s (.ok s.types.size)
        (r.settled path w s.types.size
          (s₁.withTypes (s₁.types.fill s.types.size (Demand.filled shape found))))
  | nil {depth : Nat} {s : WalkState} : Walked r path depth (.each []) s (.ok []) s
  | headFails {depth : Nat} {c : Child} {rest : List Child} {s s₁ : WalkState} {e : Error} :
      Walked r path depth (.one c.visit) s (.error e) s₁ →
      Walked r path depth (.each (c :: rest)) s (.error e) s₁
  | tailFails {depth : Nat} {c : Child} {rest : List Child} {s s₁ s₂ : WalkState} {e : Error}
      {id : TypeId} :
      Walked r path depth (.one c.visit) s (.ok id) s₁ →
      Walked r path depth (.each rest) s₁ (.error e) s₂ →
      Walked r path depth (.each (c :: rest)) s (.error e) s₂
  | cons {depth : Nat} {c : Child} {rest : List Child} {s s₁ s₂ : WalkState} {id : TypeId}
      {others : List (TypeId × Bool)} :
      Walked r path depth (.one c.visit) s (.ok id) s₁ →
      Walked r path depth (.each rest) s₁ (.ok others) s₂ →
      Walked r path depth (.each (c :: rest)) s
        (.ok ((id, Resolver.isConstituent (s₁.types.get? id)) :: others)) s₂

namespace Resolver

variable (r : Resolver) (path : Option String)

/-- Nested calls with a smaller depth. -/
def below (depth : Nat) (n : SchemaNode) (name : String) : Walk TypeId :=
  r.resolveWithin path depth n name false

/-- The walk for a visit. -/
def resolveVisit (depth : Nat) (v : Visit) : Walk TypeId :=
  r.resolveWithin path depth v.node v.name v.isNamed

/-! ## What one call does -/

theorem outcome_zero (v : Visit) (s : WalkState) :
    (r.resolveVisit path 0 v).outcome s = (.error (.tooDeep v.node.key.text), s) := rfl

theorem resolveVisit_succ (depth : Nat) (v : Visit) :
    r.resolveVisit path (depth + 1) v
      = r.resolveStep path (r.below path depth) v.node v.name v.isNamed := rfl

/-- Resolving a schema that is not known yet is meeting its demand while it is pending. -/
theorem outcome_resolveNew (recur : SchemaNode → String → Walk TypeId) (w : Visit)
    (s : WalkState) :
    (r.resolveNew path recur w.node w.name w.isNamed (r.keyOf path w)).outcome s =
      if r.keyOf path w ∈ s.pending then (.error (.cyclicReference w.node.key.text), s)
      else
        match (meet recur (r.keyOf path w) (r.demand path w)).outcome
            (s.push (r.keyOf path w)) with
        | (.error e, s₁) => (.error e, s₁.pop (r.keyOf path w))
        | (.ok id, s₁) => (.ok id, r.settled path w id s₁) := by
  unfold resolveNew
  rw [Walk.outcome_get_bind]
  by_cases h : r.keyOf path w ∈ s.pending
  · simp only [h, if_true, Walk.outcome_throw_bind]
    rfl
  · simp only [h, if_false, Walk.outcome_modify_bind]
    rw [Walk.outcome_bind, Walk.outcome_attempt]
    have hbuild := @build_eq_meet recur r (r.keyOf path w) path w
    simp only [Visit.features] at hbuild
    rw [hbuild]
    simp only [Walk.outcome_modify_bind]
    cases hm : (meet recur (r.keyOf path w) (r.demand path w)).outcome
        (s.push (r.keyOf path w)) with
    | mk result s₁ =>
        have hm' : (meet recur (r.keyOf path w) (r.demand path w)).outcome
            { types := s.types, pending := r.keyOf path w :: s.pending } = (result, s₁) := hm
        rw [hm']
        cases result with
        | error e => rfl
        | ok id => rfl

/-- A step follows references and looks the schema up, and resolves what it does not find. -/
theorem outcome_resolveStep (recur : SchemaNode → String → Walk TypeId) (v : Visit)
    (s : WalkState) :
    (r.resolveStep path recur v.node v.name v.isNamed).outcome s =
      match r.enter v with
      | .error e => (.error e, s)
      | .ok w =>
          match s.types.lookup (r.keyOf path w) with
          | some id => (.ok id, s)
          | none =>
              (r.resolveNew path recur w.node w.name w.isNamed (r.keyOf path w)).outcome s := by
  unfold resolveStep enter
  cases hd : r.description.dereference v.node with
  | error e =>
      rw [Walk.outcome_bind, Walk.outcome_ofExcept]
  | ok followed =>
      rw [Walk.outcome_bind, Walk.outcome_ofExcept]
      cases followed with
      | none =>
          simp only [Walk.outcome_get_bind]
          show (match s.types.lookup (r.keyOf path v) with
            | some id => pure id
            | none => r.resolveNew path recur v.node v.name v.isNamed
                (r.keyOf path v) : Walk TypeId).outcome s = _
          cases s.types.lookup (r.keyOf path v) with
          | some id => rfl
          | none => rfl
      | some target =>
          obtain ⟨n, component⟩ := target
          simp only [Walk.outcome_get_bind]
          show (match s.types.lookup (r.keyOf path ⟨n, component, true⟩) with
            | some id => pure id
            | none => r.resolveNew path recur n component true
                (r.keyOf path ⟨n, component, true⟩) : Walk TypeId).outcome s = _
          cases s.types.lookup (r.keyOf path ⟨n, component, true⟩) with
          | some id => rfl
          | none => rfl

theorem outcome_succ (depth : Nat) (v : Visit) (s : WalkState) :
    (r.resolveVisit path (depth + 1) v).outcome s =
      match r.enter v with
      | .error e => (.error e, s)
      | .ok w =>
          match s.types.lookup (r.keyOf path w) with
          | some id => (.ok id, s)
          | none =>
              (r.resolveNew path (r.below path depth) w.node w.name w.isNamed
                (r.keyOf path w)).outcome s := by
  rw [resolveVisit_succ, outcome_resolveStep]

variable {r path}

/-- A schema that a visit enters is resolved by meeting its demand. -/
theorem Enters.outcome {depth : Nat} {v w : Visit} {s : WalkState} (h : r.Enters path v s w) :
    (r.resolveVisit path (depth + 1) v).outcome s =
      match (meet (r.below path depth) (r.keyOf path w) (r.demand path w)).outcome
          (s.push (r.keyOf path w)) with
      | (.error e, s₁) => (.error e, s₁.pop (r.keyOf path w))
      | (.ok id, s₁) => (.ok id, r.settled path w id s₁) := by
  rw [outcome_succ, h.enter_eq]
  simp only [h.lookup_eq]
  rw [outcome_resolveNew, if_neg h.notMem]

theorem outcome_meet_wrapper (recur : SchemaNode → String → Walk TypeId) (key : MemoKey)
    (item : Child) (shape : ModelType) (s : WalkState) :
    (meet recur key (.wrapper item shape)).outcome s =
      match (recur item.node item.name).outcome s with
      | (.ok id, s₁) =>
          (.ok s₁.types.size, s₁.withTypes (s₁.types.add (shape.rename fun _ => id)).2)
      | (.error e, s₁) => (.error e, s₁) := by
  rw [meet, Walk.outcome_bind]
  cases (recur item.node item.name).outcome s with
  | mk result s₁ =>
      cases result with
      | ok id => rfl
      | error e => rfl

/-- A slot that is reserved may be found while its type is made, and is filled with it. -/
theorem outcome_reserving (key : MemoKey) (make : Walk ModelType) (s : WalkState) :
    (reserving key make).outcome s =
      match make.outcome (s.withTypes (s.types.reserve.2.remember key s.types.size)) with
      | (.ok t, s₁) => (.ok s.types.size, s₁.withTypes (s₁.types.fill s.types.size t))
      | (.error e, s₁) => (.error e, s₁) := by
  rw [reserving, Walk.outcome_bind, Walk.outcome_onTypes]
  show (_ >>= _ : Walk TypeId).outcome _ = _
  rw [Walk.outcome_bind, Walk.outcome_modifyTypes]
  show (_ >>= _ : Walk TypeId).outcome
    (s.withTypes (s.types.reserve.2.remember key s.types.size)) = _
  rw [Walk.outcome_bind]
  cases make.outcome (s.withTypes (s.types.reserve.2.remember key s.types.size)) with
  | mk result s₁ =>
      cases result with
      | ok t => rfl
      | error e => rfl

theorem outcome_meet_composite (recur : SchemaNode → String → Walk TypeId) (key : MemoKey)
    (children : List Child) (shape : ModelType) (s : WalkState) :
    (meet recur key (.composite children shape)).outcome (s.push key) =
      match (resolveEach recur children).outcome (s.start key) with
      | (.ok found, s₁) =>
          (.ok s.types.size,
            s₁.withTypes (s₁.types.fill s.types.size (Demand.filled shape found)))
      | (.error e, s₁) => (.error e, s₁) := by
  rw [meet, outcome_reserving]
  show (match (_ >>= _ : Walk ModelType).outcome (s.start key) with
    | (.ok t, s₁) => (.ok s.types.size, s₁.withTypes (s₁.types.fill s.types.size t))
    | (.error e, s₁) => (.error e, s₁) : Except Error TypeId × WalkState) = _
  rw [Walk.outcome_bind]
  cases (resolveEach recur children).outcome (s.start key) with
  | mk result s₁ =>
      cases result with
      | ok found => rfl
      | error e => rfl

theorem outcome_resolveEach_cons (recur : SchemaNode → String → Walk TypeId) (c : Child)
    (rest : List Child) (s : WalkState) :
    (resolveEach recur (c :: rest)).outcome s =
      match (recur c.node c.name).outcome s with
      | (.error e, s₁) => (.error e, s₁)
      | (.ok id, s₁) =>
          match (resolveEach recur rest).outcome s₁ with
          | (.error e, s₂) => (.error e, s₂)
          | (.ok others, s₂) =>
              (.ok ((id, isConstituent (s₁.types.get? id)) :: others), s₂) := by
  rw [resolveEach, Walk.outcome_bind]
  cases (recur c.node c.name).outcome s with
  | mk result s₁ =>
      cases result with
      | error e => rfl
      | ok id =>
          simp only [Walk.outcome_get_bind]
          rw [Walk.outcome_bind]
          cases (resolveEach recur rest).outcome s₁ with
          | mk result s₂ =>
              cases result with
              | error e => rfl
              | ok others => rfl

end Resolver

/-! ## The relation and the walk that runs -/

variable {r : Resolver} {path : Option String}

/-- A loop over schemas is related to its outcome if each of its calls is. -/
theorem walked_resolveEach_of {depth : Nat}
    (h : ∀ v s, Walked r path depth (.one v) s ((r.resolveVisit path depth v).outcome s).1
      ((r.resolveVisit path depth v).outcome s).2) (cs : List Child) (s : WalkState) :
    Walked r path depth (.each cs) s
      ((Resolver.resolveEach (r.below path depth) cs).outcome s).1
      ((Resolver.resolveEach (r.below path depth) cs).outcome s).2 := by
  induction cs generalizing s with
  | nil => exact Walked.nil
  | cons c rest ih =>
      have hc := h c.visit s
      rw [Resolver.outcome_resolveEach_cons]
      change Walked r path depth (.one c.visit) s ((r.below path depth c.node c.name).outcome s).1
        ((r.below path depth c.node c.name).outcome s).2 at hc
      cases hhead : (r.below path depth c.node c.name).outcome s with
      | mk result s₁ =>
          rw [hhead] at hc
          cases result with
          | error e => exact Walked.headFails hc
          | ok id =>
              have hrest := ih s₁
              cases htail : (Resolver.resolveEach (r.below path depth) rest).outcome s₁ with
              | mk result s₂ =>
                  rw [htail] at hrest
                  cases result with
                  | error e =>
                      simp only [htail]
                      exact Walked.tailFails hc hrest
                  | ok others =>
                      simp only [htail]
                      exact Walked.cons hc hrest

/-- **Every walk is related to its outcome.** -/
theorem walked_resolveVisit (depth : Nat) (v : Visit) (s : WalkState) :
    Walked r path depth (.one v) s ((r.resolveVisit path depth v).outcome s).1
      ((r.resolveVisit path depth v).outcome s).2 := by
  induction depth generalizing v s with
  | zero => exact Walked.deep
  | succ depth ih =>
      cases hv : r.enter v with
      | error e =>
          rw [Resolver.outcome_succ, hv]
          exact Walked.strayed hv
      | ok w =>
          cases hl : s.types.lookup (r.keyOf path w) with
          | some id =>
              rw [Resolver.outcome_succ, hv]
              simp only [hl]
              exact Walked.found hv hl
          | none =>
              by_cases hp : r.keyOf path w ∈ s.pending
              · rw [Resolver.outcome_succ, hv]
                simp only [hl]
                rw [Resolver.outcome_resolveNew, if_pos hp]
                exact Walked.cyclic hv hl hp
              · have hin : r.Enters path v s w := ⟨hv, hl, hp⟩
                rw [hin.outcome]
                cases hd : r.demand path w with
                | fault e =>
                    show Walked r path (depth + 1) (.one v) s (.error e)
                      ((s.push (r.keyOf path w)).pop (r.keyOf path w))
                    rw [WalkState.pop_push]
                    exact Walked.fault hin hd
                | block inner last =>
                    have h := @Walked.block r path depth _ _ _ _ _ hin hd
                    have hs : r.settled path w (s.types.size + inner.length)
                        ((s.push (r.keyOf path w)).withTypes (s.types.addBlock inner last).2)
                        = s.withTypes (r.settle path w (s.types.size + inner.length)
                            (s.types.addBlock inner last).2) := by
                      simp [Resolver.settled, WalkState.withTypes, WalkState.push]
                    rw [← hs] at h
                    exact h
                | wrapper item shape =>
                    rw [Resolver.outcome_meet_wrapper]
                    have hi := ih item.visit (s.push (r.keyOf path w))
                    change Walked r path depth (.one item.visit) _
                      ((r.below path depth item.node item.name).outcome _).1
                      ((r.below path depth item.node item.name).outcome _).2 at hi
                    cases ho : (r.below path depth item.node item.name).outcome
                        (s.push (r.keyOf path w)) with
                    | mk result s₁ =>
                        rw [ho] at hi
                        cases result with
                        | error e => exact Walked.wrapperFails hin hd hi
                        | ok id => exact Walked.wrapper hin hd hi
                | composite children shape =>
                    rw [Resolver.outcome_meet_composite]
                    have hc := walked_resolveEach_of ih children (s.start (r.keyOf path w))
                    cases ho : (Resolver.resolveEach (r.below path depth) children).outcome
                        (s.start (r.keyOf path w)) with
                    | mk result s₁ =>
                        rw [ho] at hc
                        cases result with
                        | error e => exact Walked.compositeFails hin hd hc
                        | ok found => exact Walked.composite hin hd hc

/-- How the walk for a call ends and what it leaves behind. -/
def Resolver.ending (r : Resolver) (path : Option String) (depth : Nat) :
    (c : Call) → WalkState → Except Error c.Out × WalkState
  | .one v, s => (r.resolveVisit path depth v).outcome s
  | .each cs, s => (Resolver.resolveEach (r.below path depth) cs).outcome s

/-- **The relation holds of nothing but the outcome.** -/
theorem Walked.ending_eq {depth : Nat} {c : Call} {s s' : WalkState} {out : Except Error c.Out}
    (h : Walked r path depth c s out s') : r.ending path depth c s = (out, s') := by
  induction h with
  | deep => exact Resolver.outcome_zero r path _ _
  | strayed hv =>
      show (r.resolveVisit path _ _).outcome _ = _
      rw [Resolver.outcome_succ, hv]
      rfl
  | found hv hl =>
      show (r.resolveVisit path _ _).outcome _ = _
      rw [Resolver.outcome_succ, hv]
      simp only [hl]
      rfl
  | cyclic hv hl hp =>
      show (r.resolveVisit path _ _).outcome _ = _
      rw [Resolver.outcome_succ, hv]
      simp only [hl]
      rw [Resolver.outcome_resolveNew, if_pos hp]
      rfl
  | fault hin hd =>
      show (r.resolveVisit path _ _).outcome _ = _
      rw [hin.outcome, hd]
      show (_, (WalkState.push _ _).pop _) = _
      rw [WalkState.pop_push]
      rfl
  | block hin hd =>
      show (r.resolveVisit path _ _).outcome _ = _
      rw [hin.outcome, hd]
      show (_, r.settled path _ _ ((WalkState.push _ _).withTypes _)) = _
      simp [Resolver.settled, WalkState.withTypes, WalkState.push, TypeStore.addBlock]
      rfl
  | @wrapperFails depth v w s s₁ item shape e hin hd _ ih =>
      show (r.resolveVisit path _ _).outcome _ = _
      rw [hin.outcome, hd, Resolver.outcome_meet_wrapper]
      change (r.below path depth item.node item.name).outcome _ = _ at ih
      rw [ih]
      rfl
  | @wrapper depth v w s s₁ item shape id hin hd _ ih =>
      show (r.resolveVisit path _ _).outcome _ = _
      rw [hin.outcome, hd, Resolver.outcome_meet_wrapper]
      change (r.below path depth item.node item.name).outcome _ = _ at ih
      rw [ih]
      rfl
  | @compositeFails depth v w s s₁ children shape e hin hd _ ih =>
      show (r.resolveVisit path _ _).outcome _ = _
      rw [hin.outcome, hd, Resolver.outcome_meet_composite]
      change (Resolver.resolveEach (r.below path depth) children).outcome _ = _ at ih
      rw [ih]
      rfl
  | @composite depth v w s s₁ children shape found hin hd _ ih =>
      show (r.resolveVisit path _ _).outcome _ = _
      rw [hin.outcome, hd, Resolver.outcome_meet_composite]
      change (Resolver.resolveEach (r.below path depth) children).outcome _ = _ at ih
      rw [ih]
      rfl
  | nil => rfl
  | @headFails depth c rest s s₁ e _ ih =>
      show (Resolver.resolveEach (r.below path depth) (c :: rest)).outcome s = _
      rw [Resolver.outcome_resolveEach_cons]
      change (r.below path depth c.node c.name).outcome s = _ at ih
      rw [ih]
      rfl
  | @tailFails depth c rest s s₁ s₂ e id _ _ ih₁ ih₂ =>
      show (Resolver.resolveEach (r.below path depth) (c :: rest)).outcome s = _
      rw [Resolver.outcome_resolveEach_cons]
      change (r.below path depth c.node c.name).outcome s = _ at ih₁
      change (Resolver.resolveEach (r.below path depth) rest).outcome s₁ = _ at ih₂
      rw [ih₁]
      simp only [ih₂]
      rfl
  | @cons depth c rest s s₁ s₂ id others _ _ ih₁ ih₂ =>
      show (Resolver.resolveEach (r.below path depth) (c :: rest)).outcome s = _
      rw [Resolver.outcome_resolveEach_cons]
      change (r.below path depth c.node c.name).outcome s = _ at ih₁
      change (Resolver.resolveEach (r.below path depth) rest).outcome s₁ = _ at ih₂
      rw [ih₁]
      simp only [ih₂]
      rfl

end ApiTypes
