import ApiTypes.Proofs.Walk.Recursion

/-!
# What slots are taken for

A slot is taken for the type of a schema, and then it is remembered for the schema; or it is taken
for a type that belongs to a rule, to a map or to one use, and then nothing finds it again. The
purposes of the slots that requests take are told in the order of the slots (`purposes`). However
the requests end, the store remembers a slot for a schema exactly if this is the purpose of the slot
(`TypeStore.Records`), so a slot has one schema at most.

What is remembered changes at two points: where a slot is reserved before the schemas below are
resolved, and where a schema has got its type. Between both a schema is being resolved, so it is
remembered for no other slot (`Walked.lookup_of_mem_pending`).
-/

set_option autoImplicit false

namespace ApiTypes

/-- What a slot is taken for. -/
inductive Purpose where
  /-- The type of a schema, which is remembered for it. -/
  | schema (key : MemoKey)
  /-- An argument of the type that a rule gives. -/
  | argument
  /-- The values of a map that may be anything. -/
  | value
  /-- The type of one use. -/
  | use
  deriving DecidableEq

/-! ## Purposes of a walk -/

namespace Resolver

variable (r : Resolver) (path : Option String)

/-- What the types are taken for that a schema needs before its own: they are arguments if a rule
gives the schema its type. -/
def innerPurpose (w : Visit) : Purpose :=
  match Lookup.typeRule? r.mappings path .schema w.features with
  | some _ => .argument
  | none => .value

section Below

variable (depth : ℕ) (below : Visit → WalkState → List Purpose)

/-- The purposes for schemas one after the other, up to the first one that fails. -/
def takenEach : List Child → WalkState → List Purpose
  | [], _ => []
  | c :: rest, s =>
      match (r.resolveVisit path depth c.visit).outcome s with
      | (.ok _, s₁) => below c.visit s ++ takenEach rest s₁
      | (.error _, _) => below c.visit s

/-- The purposes for a type around that of an item: it comes after the item, if there is one. -/
def takenAround (item : Child) (s : WalkState) (purpose : Purpose) : List Purpose :=
  match (r.resolveVisit path depth item.visit).outcome s with
  | (.ok _, _) => below item.visit s ++ [purpose]
  | (.error _, _) => below item.visit s

/-- The purposes for what a schema demands. -/
def takenFor (w : Visit) (s : WalkState) : Demand → List Purpose
  | .fault _ => []
  | .block inner _ =>
      List.replicate inner.length (r.innerPurpose path w) ++ [.schema (r.keyOf path w)]
  | .wrapper item _ =>
      r.takenAround path depth below item (s.push (r.keyOf path w)) (.schema (r.keyOf path w))
  | .composite children _ =>
      .schema (r.keyOf path w) :: r.takenEach path depth below children (s.start (r.keyOf path w))

end Below

/-- The purposes of the slots that a call for a schema takes. -/
def taken : ℕ → Visit → WalkState → List Purpose
  | 0, _, _ => []
  | depth + 1, v, s =>
      match r.enter v with
      | .error _ => []
      | .ok w =>
          if (s.types.lookup (r.keyOf path w)).isSome ∨ r.keyOf path w ∈ s.pending then []
          else r.takenFor path depth (taken depth) w s (r.demand path w)

/-- The purposes of the slots that a call takes. -/
def takenIn (depth : ℕ) : Call → WalkState → List Purpose
  | .one v, s => r.taken path depth v s
  | .each cs, s => r.takenEach path depth (r.taken path depth) cs s

/-- The purposes of the slots that a request takes. -/
def takenBy : Request → WalkState → List Purpose
  | .component n name, s => r.taken none (r.depthFor n) ⟨n, name, true⟩ s
  | .use path use n name, s =>
      match r.enter ⟨n, name, false⟩ with
      | .error _ => []
      | .ok w =>
          match r.useDemand path use w with
          | none => r.taken path (r.depthFor w.node) w s
          | some (.block inner _) => List.replicate inner.length .argument ++ [.use]
          | some (.wrapper item _) =>
              let depth := r.depthFor item.node
              r.takenAround path depth (r.taken path depth) item s .use
          | some _ => []

variable {r path}

theorem Enters.taken_eq {depth : ℕ} {v w : Visit} {s : WalkState} (h : r.Enters path v s w) :
    r.taken path (depth + 1) v s
      = r.takenFor path depth (r.taken path depth) w s (r.demand path w) := by
  have hnew : ¬ ((s.types.lookup (r.keyOf path w)).isSome ∨ r.keyOf path w ∈ s.pending) := by
    simp [h.lookup_eq, h.notMem]
  rw [taken, h.enter_eq]
  simp only [if_neg hnew]

theorem takenAround_of_ok {depth : ℕ} {below : Visit → WalkState → List Purpose} {item : Child}
    {s s₁ : WalkState} {id : TypeId} (h : Walked r path depth (.one item.visit) s (.ok id) s₁)
    (purpose : Purpose) :
    r.takenAround path depth below item s purpose = below item.visit s ++ [purpose] := by
  have hout : (r.resolveVisit path depth item.visit).outcome s = (.ok id, s₁) := h.ending_eq
  rw [takenAround, hout]

theorem takenAround_of_error {depth : ℕ} {below : Visit → WalkState → List Purpose} {item : Child}
    {s s₁ : WalkState} {e : Error} (h : Walked r path depth (.one item.visit) s (.error e) s₁)
    (purpose : Purpose) :
    r.takenAround path depth below item s purpose = below item.visit s := by
  have hout : (r.resolveVisit path depth item.visit).outcome s = (.error e, s₁) := h.ending_eq
  rw [takenAround, hout]

theorem takenEach_of_ok {depth : ℕ} {below : Visit → WalkState → List Purpose} {c : Child}
    {s s₁ : WalkState} {id : TypeId} (h : Walked r path depth (.one c.visit) s (.ok id) s₁)
    (rest : List Child) :
    r.takenEach path depth below (c :: rest) s
      = below c.visit s ++ r.takenEach path depth below rest s₁ := by
  have hout : (r.resolveVisit path depth c.visit).outcome s = (.ok id, s₁) := h.ending_eq
  rw [takenEach, hout]

theorem takenEach_of_error {depth : ℕ} {below : Visit → WalkState → List Purpose} {c : Child}
    {s s₁ : WalkState} {e : Error} (h : Walked r path depth (.one c.visit) s (.error e) s₁)
    (rest : List Child) : r.takenEach path depth below (c :: rest) s = below c.visit s := by
  have hout : (r.resolveVisit path depth c.visit).outcome s = (.error e, s₁) := h.ending_eq
  rw [takenEach, hout]

end Resolver

/-! ## Stores and purposes -/

/-- Each slot of a store has a purpose, and a slot is remembered for a schema exactly if this is its
purpose. -/
structure TypeStore.Records (types : TypeStore) (purposes : List Purpose) : Prop where
  /-- There are as many purposes as slots. -/
  length_eq : purposes.length = types.size
  /-- What is remembered for a schema is the slot with this purpose. -/
  lookup_iff : ∀ (key : MemoKey) (i : ℕ),
    types.lookup key = some i ↔ purposes[i]? = some (.schema key)

namespace TypeStore.Records

variable {types types' : TypeStore} {purposes own : List Purpose} {key : MemoKey} {i : ℕ}

theorem empty : TypeStore.Records {} [] where
  length_eq := rfl
  lookup_iff key i := by
    constructor
    · intro h
      cases h
    · intro h
      cases h

/-- A slot is remembered for one schema. -/
theorem key_eq {key' : MemoKey} (h : types.Records purposes) (hk : types.lookup key = some i)
    (hk' : types.lookup key' = some i) : key = key' := by
  have hpurpose := ((h.lookup_iff key i).1 hk).symm.trans ((h.lookup_iff key' i).1 hk')
  exact Purpose.schema.inj (Option.some.inj hpurpose)

/-- A slot with another purpose is remembered for no schema. -/
theorem lookup_ne {purpose : Purpose} (h : types.Records purposes)
    (hi : purposes[i]? = some purpose) (hpurpose : ∀ key, purpose ≠ .schema key) (key : MemoKey) :
    types.lookup key ≠ some i := by
  intro hk
  rw [(h.lookup_iff key i).1 hk] at hi
  exact hpurpose key (Option.some.inj hi).symm

/-- Slots that are taken later leave the purposes of the earlier ones. -/
theorem getElem?_append {purpose : Purpose} (h : purposes[i]? = some purpose)
    (later : List Purpose) : (purposes ++ later)[i]? = some purpose := by
  rw [List.getElem?_append_left (List.getElem?_eq_some_iff.1 h).1]
  exact h

/-- Slots that are taken next for one purpose have this purpose. -/
theorem getElem?_replicate {purpose : Purpose} {k count : ℕ} (h : types.Records purposes)
    (hk : k < count) (later : List Purpose) :
    (purposes ++ (List.replicate count purpose ++ later))[types.size + k]? = some purpose := by
  have hle : purposes.length ≤ types.size + k := by
    rw [h.length_eq]
    exact Nat.le_add_right _ _
  have hindex : types.size + k - purposes.length = k := by
    rw [h.length_eq]
    exact Nat.add_sub_cancel_left _ _
  rw [List.getElem?_append_right hle, hindex]
  apply getElem?_append
  rw [List.getElem?_replicate, if_pos hk]

/-- A store with as many slots in which the same is remembered. -/
theorem same (h : types.Records purposes) (hsize : types'.size = types.size)
    (hlookup : ∀ key, types'.lookup key = types.lookup key) : types'.Records purposes where
  length_eq := by rw [h.length_eq, hsize]
  lookup_iff key i := by rw [hlookup, h.lookup_iff]

/-- Slots that are not taken for a schema do not matter for it. -/
theorem getElem?_append_iff (hown : Purpose.schema key ∉ own) :
    (purposes ++ own)[i]? = some (.schema key) ↔ purposes[i]? = some (.schema key) := by
  constructor
  · intro h
    rw [List.getElem?_append] at h
    split at h
    · exact h
    · exact absurd (List.mem_of_getElem? h) hown
  · intro h
    exact getElem?_append h own

/-- Slots are taken that are for no schema. -/
theorem append (h : types.Records purposes) (hown : ∀ key, Purpose.schema key ∉ own)
    (hsize : types'.size = types.size + own.length)
    (hlookup : ∀ key, types'.lookup key = types.lookup key) :
    types'.Records (purposes ++ own) where
  length_eq := by rw [List.length_append, h.length_eq, hsize]
  lookup_iff key i := by rw [hlookup, h.lookup_iff, getElem?_append_iff (hown key)]

/-- A slot is taken for a schema that was not remembered. -/
theorem remember (h : types.Records purposes) (hnone : types.lookup key = none)
    (hsize : types'.size = types.size + 1)
    (hlookup : ∀ other, types'.lookup other
      = if other = key then some types.size else types.lookup other) :
    types'.Records (purposes ++ [.schema key]) where
  length_eq := by rw [List.length_append, h.length_eq, hsize, List.length_singleton]
  lookup_iff other i := by
    rw [hlookup]
    by_cases hother : other = key
    · subst hother
      rw [if_pos rfl, ← h.length_eq]
      constructor
      · intro hi
        rw [← Option.some.inj hi]
        exact List.getElem?_concat_length
      · intro hi
        rw [List.getElem?_append] at hi
        split at hi
        · -- The schema was not remembered, so it is not the purpose of an earlier slot.
          rw [(h.lookup_iff other i).2 hi] at hnone
          cases hnone
        · rename_i hle
          have hindex := (List.getElem?_eq_some_iff.1 hi).1
          rw [List.length_singleton] at hindex
          exact congrArg some (by omega)
    · have hown : Purpose.schema other ∉ [Purpose.schema key] := by
        simpa using hother
      rw [if_neg hother, h.lookup_iff, getElem?_append_iff hown]

/-- What is remembered already may be remembered again. -/
theorem refresh (h : types.Records purposes) (hkey : types.lookup key = some i)
    (hsize : types'.size = types.size)
    (hlookup : ∀ other, types'.lookup other
      = if other = key then some i else types.lookup other) : types'.Records purposes := by
  apply h.same hsize
  intro other
  rw [hlookup]
  split
  · rename_i hother
    rw [hother, hkey]
  · rfl

/-- A slot is reserved for a schema that was not remembered. -/
theorem start {s : WalkState} (h : s.types.Records purposes) (hnone : s.types.lookup key = none) :
    (s.start key).types.Records (purposes ++ [.schema key]) := by
  apply h.remember hnone (s.size_start key)
  intro other
  rw [WalkState.types_start, TypeStore.lookup_remember, TypeStore.lookup_reserve]

end TypeStore.Records

/-! ## Calls -/

section Calls

variable {r : Resolver} {path : Option String} {depth : ℕ} {purposes : List Purpose}

theorem Resolver.innerPurpose_ne (r : Resolver) (path : Option String) (w : Visit) (key : MemoKey) :
    r.innerPurpose path w ≠ .schema key := by
  unfold innerPurpose
  split
  · simp
  · simp

/-- A block of types is added for a schema, whose type is the last one. -/
theorem TypeStore.Records.settle_addBlock {types : TypeStore} {w : Visit} {inner : List ModelType}
    (h : types.Records purposes) (hnone : types.lookup (r.keyOf path w) = none)
    (last : ModelType) :
    (r.settle path w (types.size + inner.length) (types.addBlock inner last).2).Records
      (purposes ++ (List.replicate inner.length (r.innerPurpose path w)
        ++ [.schema (r.keyOf path w)])) := by
  -- The types before the last one are added first, and nothing is remembered for them.
  have hinner : (types.addAll inner).Records
      (purposes ++ List.replicate inner.length (r.innerPurpose path w)) := by
    apply h.append
    · intro key hkey
      exact r.innerPurpose_ne path w key (List.eq_of_mem_replicate hkey).symm
    · rw [TypeStore.size_addAll, List.length_replicate]
    · intro key
      rw [TypeStore.lookup_addAll]
  rw [← List.append_assoc]
  apply hinner.remember
  · rw [TypeStore.lookup_addAll]
    exact hnone
  · rw [Resolver.size_settle, TypeStore.size_addBlock, TypeStore.size_addAll]
    rfl
  · intro other
    rw [Resolver.lookup_settle, TypeStore.lookup_addBlock, TypeStore.lookup_addAll,
      TypeStore.size_addAll]

/-- A type around that of an item is added for a schema. -/
theorem TypeStore.Records.settle_add {types : TypeStore} {w : Visit}
    (h : types.Records purposes) (hnone : types.lookup (r.keyOf path w) = none) (t : ModelType) :
    (r.settle path w types.size (types.add t).2).Records
      (purposes ++ [.schema (r.keyOf path w)]) := by
  apply h.remember hnone
  · rw [Resolver.size_settle, TypeStore.size_add]
  · intro other
    rw [Resolver.lookup_settle, TypeStore.lookup_add]

/-- **A call takes slots for their purposes, however it ends.** -/
theorem Walked.records {c : Call} {s s' : WalkState} {out : Except Error c.Out}
    (h : Walked r path depth c s out s') (hs : s.types.Records purposes) :
    s'.types.Records (purposes ++ r.takenIn path depth c s) := by
  induction h generalizing purposes with
  | deep => simpa [Resolver.takenIn, Resolver.taken] using hs
  | strayed hv => simpa [Resolver.takenIn, Resolver.taken, hv] using hs
  | found hv hl => simpa [Resolver.takenIn, Resolver.taken, hv, hl] using hs
  | cyclic hv hl hp => simpa [Resolver.takenIn, Resolver.taken, hv, hp] using hs
  | fault hin hd =>
      rw [Resolver.takenIn, hin.taken_eq, hd]
      simpa [Resolver.takenFor] using hs
  | @block depth v w s inner last hin hd =>
      rw [Resolver.takenIn, hin.taken_eq, hd]
      exact hs.settle_addBlock hin.lookup_eq last
  | @wrapperFails depth v w s s₁ item shape e hin hd hitem ih =>
      rw [Resolver.takenIn, hin.taken_eq, hd, Resolver.takenFor,
        Resolver.takenAround_of_error hitem]
      exact ih hs
  | @wrapper depth v w s s₁ item shape id hin hd hitem ih =>
      -- While its item is resolved the schema is remembered for no slot.
      have hnone : s₁.types.lookup (r.keyOf path w) = none :=
        hitem.lookup_of_mem_pending List.mem_cons_self hin.lookup_eq
      rw [Resolver.takenIn, hin.taken_eq, hd, Resolver.takenFor, Resolver.takenAround_of_ok hitem,
        ← List.append_assoc]
      exact (ih hs).settle_add hnone _
  | @compositeFails depth v w s s₁ children shape e hin hd _ ih =>
      rw [Resolver.takenIn, hin.taken_eq, hd, Resolver.takenFor, List.append_cons]
      exact ih (hs.start hin.lookup_eq)
  | @composite depth v w s s₁ children shape found hin hd hchildren ih =>
      have hkey : s₁.types.lookup (r.keyOf path w) = some s.types.size := hchildren.reserved.1
      rw [Resolver.takenIn, hin.taken_eq, hd, Resolver.takenFor, List.append_cons]
      apply (ih (hs.start hin.lookup_eq)).refresh hkey
      · rw [Resolver.types_settled, Resolver.size_settle, WalkState.types_withTypes,
          TypeStore.size_fill]
      · intro other
        rw [Resolver.types_settled, Resolver.lookup_settle, WalkState.types_withTypes,
          TypeStore.lookup_fill]
  | nil => simpa [Resolver.takenIn, Resolver.takenEach] using hs
  | headFails hhead ih =>
      rw [Resolver.takenIn, Resolver.takenEach_of_error hhead]
      exact ih hs
  | tailFails hhead _ ih₁ ih₂ =>
      rw [Resolver.takenIn, Resolver.takenEach_of_ok hhead, ← List.append_assoc]
      exact ih₂ (ih₁ hs)
  | cons hhead _ ih₁ ih₂ =>
      rw [Resolver.takenIn, Resolver.takenEach_of_ok hhead, ← List.append_assoc]
      exact ih₂ (ih₁ hs)

/-- While a call runs, a slot is taken for an argument of a rule. Where the items of an array are
the argument, the rule shares the slot of their schema, and takes none. -/
inductive Resolver.TakesArgument (r : Resolver) (path : Option String) :
    ℕ → Call → WalkState → ℕ → Prop
  | rule {depth k : ℕ} {v w : Visit} {s : WalkState} {rule : Rule} {target : Target}
      {last : ModelType} :
      r.Enters path v s w → Lookup.typeRule? r.mappings path .schema w.features = some rule →
      r.ruleTarget rule = .ok target →
      r.demand path w = .block (Target.allTypesFrom 0 target.args) last →
      k < Target.countAll target.args →
      r.TakesArgument path (depth + 1) (.one v) s (s.types.size + k)
  | item {depth i : ℕ} {v w : Visit} {s : WalkState} {item : Child} {shape : ModelType} :
      r.Enters path v s w → r.demand path w = .wrapper item shape →
      r.TakesArgument path depth (.one item.visit) (s.push (r.keyOf path w)) i →
      r.TakesArgument path (depth + 1) (.one v) s i
  | children {depth i : ℕ} {v w : Visit} {s : WalkState} {children : List Child}
      {shape : ModelType} :
      r.Enters path v s w → r.demand path w = .composite children shape →
      r.TakesArgument path depth (.each children) (s.start (r.keyOf path w)) i →
      r.TakesArgument path (depth + 1) (.one v) s i
  | head {depth i : ℕ} {c : Child} {rest : List Child} {s : WalkState} :
      r.TakesArgument path depth (.one c.visit) s i →
      r.TakesArgument path depth (.each (c :: rest)) s i
  | tail {depth i : ℕ} {c : Child} {rest : List Child} {s s₁ : WalkState} {id : TypeId} :
      Walked r path depth (.one c.visit) s (.ok id) s₁ →
      r.TakesArgument path depth (.each rest) s₁ i →
      r.TakesArgument path depth (.each (c :: rest)) s i

/-- The slots of an item come before the one around it, whether the item gets a type or not. -/
theorem Resolver.getElem?_takenAround {below : Visit → WalkState → List Purpose} {item : Child}
    {s : WalkState} {i : ℕ} {purpose : Purpose}
    (h : (purposes ++ below item.visit s)[i]? = some purpose) (around : Purpose) :
    (purposes ++ r.takenAround path depth below item s around)[i]? = some purpose := by
  rw [takenAround]
  split
  · rw [← List.append_assoc]
    exact TypeStore.Records.getElem?_append h _
  · exact h

/-- The slot is taken for this purpose. -/
theorem Resolver.TakesArgument.getElem?_eq {c : Call} {s : WalkState} {i : ℕ}
    (h : r.TakesArgument path depth c s i) (hs : s.types.Records purposes) :
    (purposes ++ r.takenIn path depth c s)[i]? = some .argument := by
  induction h generalizing purposes with
  | @rule depth k v w s rule target last hin hrule _ hd hk =>
      have hpurpose : r.innerPurpose path w = .argument := by
        rw [Resolver.innerPurpose, hrule]
      rw [Resolver.takenIn, hin.taken_eq, hd, Resolver.takenFor, hpurpose,
        Target.length_allTypesFrom]
      exact hs.getElem?_replicate hk _
  | @item depth i v w s item shape hin hd hitem ih =>
      rw [Resolver.takenIn, hin.taken_eq, hd, Resolver.takenFor]
      exact Resolver.getElem?_takenAround (ih hs) _
  | children hin hd _ ih =>
      rw [Resolver.takenIn, hin.taken_eq, hd, Resolver.takenFor, List.append_cons]
      exact ih (hs.start hin.lookup_eq)
  | head _ ih =>
      rw [Resolver.takenIn, Resolver.takenEach]
      split
      · rw [← List.append_assoc]
        exact TypeStore.Records.getElem?_append (ih hs) _
      · exact ih hs
  | tail hhead _ ih =>
      rw [Resolver.takenIn, Resolver.takenEach_of_ok hhead, ← List.append_assoc]
      exact ih (hhead.records hs)

end Calls

/-! ## Requests -/

/-- While a request is answered, a slot is taken for an argument of a rule: of the rule for the use,
or of a rule for a schema that is resolved. -/
inductive Resolver.TakesArgumentFor (r : Resolver) : Request → WalkState → ℕ → Prop
  | use {path : Option String} {use : Use} {n : SchemaNode} {name : String} {w : Visit}
      {s : WalkState} {rule : Rule} {target : Target} {last : ModelType} {k : ℕ} :
      r.enter ⟨n, name, false⟩ = .ok w →
      Lookup.usageTypeRule? r.mappings path use w.features = some rule →
      r.ruleTarget rule = .ok target →
      r.useDemand path use w = some (.block (Target.allTypesFrom 0 target.args) last) →
      k < Target.countAll target.args →
      r.TakesArgumentFor (.use path use n name) s (s.types.size + k)
  | call {q : Request} {path : Option String} {v : Visit} {s : WalkState} {i : ℕ} :
      r.Begins q path v → r.TakesArgument path (r.depthFor v.node) (.one v) s i →
      r.TakesArgumentFor q s i

section Requests

variable {r : Resolver} {path : Option String} {use : Use} {n : SchemaNode} {name : String}
  {w : Visit} {s s' : WalkState} {purposes : List Purpose}

theorem Resolver.takenBy_use (hin : r.enter ⟨n, name, false⟩ = .ok w) (s : WalkState) :
    r.takenBy (.use path use n name) s =
      match r.useDemand path use w with
      | none => r.taken path (r.depthFor w.node) w s
      | some (.block inner _) => List.replicate inner.length .argument ++ [.use]
      | some (.wrapper item _) =>
          r.takenAround path (r.depthFor item.node) (r.taken path (r.depthFor item.node)) item s
            .use
      | some _ => [] := by
  rw [takenBy, hin]

/-- **A request takes slots for their purposes, however it ends.** -/
theorem Answered.records {q : Request} {out : Except Error Resolved} (h : Answered r q s out s')
    (hs : s.types.Records purposes) : s'.types.Records (purposes ++ r.takenBy q s) := by
  cases h with
  | component h => exact h.records hs
  | componentFails h => exact h.records hs
  | strayed hin =>
      rw [Resolver.takenBy, hin]
      simpa using hs
  | shared hin hd h =>
      rw [Resolver.takenBy_use hin, hd]
      exact h.records hs
  | sharedFails hin hd h =>
      rw [Resolver.takenBy_use hin, hd]
      exact h.records hs
  | fault hin hd =>
      rw [Resolver.takenBy_use hin, hd]
      simpa using hs
  | @block path use n name w _ inner last hin hd =>
      rw [Resolver.takenBy_use hin, hd]
      apply hs.append
      · simp
      · rw [Resolver.types_owned, TypeStore.size_annotateAll, WalkState.types_withTypes,
          TypeStore.size_addBlock]
        simp
      · intro key
        rw [Resolver.types_owned, TypeStore.lookup_annotateAll, WalkState.types_withTypes,
          TypeStore.lookup_addBlock]
  | @wrapper path use n name w _ s₁ item shape id hin hd h =>
      rw [Resolver.takenBy_use hin, hd]
      simp only [Resolver.takenAround_of_ok h]
      rw [← List.append_assoc]
      apply (h.records hs).append
      · simp
      · rw [Resolver.types_owned, TypeStore.size_annotateAll, WalkState.types_withTypes,
          TypeStore.size_add]
        rfl
      · intro key
        rw [Resolver.types_owned, TypeStore.lookup_annotateAll, WalkState.types_withTypes,
          TypeStore.lookup_add]
  | wrapperFails hin hd h =>
      rw [Resolver.takenBy_use hin, hd]
      simp only [Resolver.takenAround_of_error h]
      exact h.records hs

/-- The slot that is told for a use with a rule of its own is taken for this use. -/
theorem Answered.getElem?_told {told : Resolved}
    (h : Answered r (.use path use n name) s (.ok told) s')
    (hin : r.enter ⟨n, name, false⟩ = .ok w) (hd : r.useDemand path use w ≠ none)
    (hs : s.types.Records purposes) :
    (purposes ++ r.takenBy (.use path use n name) s)[(told.type : ℕ)]? = some .use := by
  cases h with
  | shared hin' hd' =>
      cases hin.symm.trans hin'
      exact absurd hd' hd
  | @block _ _ _ _ w' _ inner last hin' hd' =>
      cases hin.symm.trans hin'
      rw [Resolver.takenBy_use hin, hd', ← List.append_assoc]
      show _[s.types.size + inner.length]? = _
      have hlength : (purposes ++ List.replicate inner.length Purpose.argument).length
          = s.types.size + inner.length := by
        rw [List.length_append, hs.length_eq, List.length_replicate]
      rw [← hlength]
      exact List.getElem?_concat_length
  | @wrapper _ _ _ _ w' _ s₁ item shape id hin' hd' h =>
      cases hin.symm.trans hin'
      rw [Resolver.takenBy_use hin, hd']
      simp only [Resolver.takenAround_of_ok h]
      rw [← List.append_assoc]
      show _[s₁.types.size]? = _
      rw [← (h.records hs).length_eq]
      exact List.getElem?_concat_length

/-- The slot is taken for this purpose. -/
theorem Resolver.TakesArgumentFor.getElem?_eq {q : Request} {i : ℕ}
    (h : r.TakesArgumentFor q s i) (hs : s.types.Records purposes) :
    (purposes ++ r.takenBy q s)[i]? = some .argument := by
  cases h with
  | @use path use n name w _ rule target last k hin _ _ hd hk =>
      rw [Resolver.takenBy_use hin, hd]
      simp only [Target.length_allTypesFrom]
      exact hs.getElem?_replicate hk _
  | call hbegins htakes =>
      have hcall := htakes.getElem?_eq hs
      cases hbegins with
      | component => exact hcall
      | shared hin hd =>
          rw [Resolver.takenBy_use hin, hd]
          exact hcall
      | item hin hd =>
          rw [Resolver.takenBy_use hin, hd]
          exact Resolver.getElem?_takenAround hcall _

end Requests

/-! ## Requests one after the other -/

/-- The state after requests, each made of a resolver, whether they are answered or fail. -/
def WalkState.after : List (Resolver × Request) → WalkState → WalkState
  | [], s => s
  | (r, q) :: rest, s => after rest ((r.ask q).outcome s).2

/-- The purposes of the slots that requests take. -/
def purposes : List (Resolver × Request) → WalkState → List Purpose
  | [], _ => []
  | (r, q) :: rest, s => r.takenBy q s ++ purposes rest ((r.ask q).outcome s).2

variable {before rest : List (Resolver × Request)} {s : WalkState}

theorem purposes_append (before rest : List (Resolver × Request)) (s : WalkState) :
    purposes (before ++ rest) s
      = purposes before s ++ purposes rest (WalkState.after before s) := by
  induction before generalizing s with
  | nil => rfl
  | cons call before ih =>
      obtain ⟨r, q⟩ := call
      rw [List.cons_append, purposes, purposes, ih, List.append_assoc]
      rfl

/-- **Requests take slots for their purposes, however they end.** -/
theorem TypeStore.Records.after {earlier : List Purpose} (hs : s.types.Records earlier)
    (asked : List (Resolver × Request)) :
    (WalkState.after asked s).types.Records (earlier ++ purposes asked s) := by
  induction asked generalizing s earlier with
  | nil => simpa [purposes, WalkState.after] using hs
  | cons call rest ih =>
      obtain ⟨r, q⟩ := call
      rw [purposes, ← List.append_assoc]
      exact ih ((answered_ask q s).records hs)

theorem records_after (asked : List (Resolver × Request)) :
    (WalkState.after asked {}).types.Records (purposes asked {}) := by
  have hempty : ({} : WalkState).types.Records [] := .empty
  exact hempty.after asked

/-- What a request takes for no schema is never remembered. -/
theorem lookup_ne_of_takenBy {r : Resolver} {q : Request} {i : ℕ} {purpose : Purpose}
    (hi : (purposes before {} ++ r.takenBy q (WalkState.after before {}))[i]? = some purpose)
    (hpurpose : ∀ key, purpose ≠ .schema key) (key : MemoKey) :
    (WalkState.after (before ++ (r, q) :: rest) {}).types.lookup key ≠ some i := by
  apply (records_after _).lookup_ne _ hpurpose
  rw [purposes_append, purposes, ← List.append_assoc]
  exact TypeStore.Records.getElem?_append hi _

/-- A use has a type of its own if there is a rule for it. -/
theorem Resolver.useDemand_ne_none {r : Resolver} {path : Option String} {use : Use} {w : Visit}
    (h : (Lookup.useRule? r.mappings path use).isSome
      ∨ (Lookup.usageTypeRule? r.mappings path use w.features).isSome) :
    r.useDemand path use w ≠ none := by
  unfold useDemand
  split
  · split
    · simp
    · simp
  · rename_i hnone
    split
    · simp
    · rename_i hnone'
      rw [hnone, hnone'] at h
      simp at h

/-- **No two schemas share a slot.** Whatever is requested, one request after the other, and however
each of them ends: a slot is remembered for one schema at most, and it is remembered for a schema
exactly if it was taken for it. The slot that is told of a use for which there is a rule, by its
name or content type or by its schema, is remembered for no schema, and neither is a slot that was
taken for an argument of a rule. -/
theorem slots_not_shared (asked : List (Resolver × Request)) :
    (WalkState.after asked {}).types.Records (purposes asked {})
      ∧ (∀ (key key' : MemoKey) (i : ℕ),
          (WalkState.after asked {}).types.lookup key = some i →
          (WalkState.after asked {}).types.lookup key' = some i → key = key')
      ∧ ∀ before r q rest, asked = before ++ (r, q) :: rest →
          (∀ path use n name w told, q = .use path use n name →
            r.enter ⟨n, name, false⟩ = .ok w →
            ((Lookup.useRule? r.mappings path use).isSome
              ∨ (Lookup.usageTypeRule? r.mappings path use w.features).isSome) →
            ((r.ask q).outcome (WalkState.after before {})).1 = .ok told →
            ∀ key, (WalkState.after asked {}).types.lookup key ≠ some told.type)
          ∧ ∀ i, r.TakesArgumentFor q (WalkState.after before {}) i →
              ∀ key, (WalkState.after asked {}).types.lookup key ≠ some i := by
  have hrecords := records_after asked
  refine ⟨hrecords, fun key key' i => hrecords.key_eq, ?_⟩
  rintro before r q rest rfl
  have hbefore := records_after before
  constructor
  · rintro path use n name w told rfl hin hrule htold
    have hans := answered_ask (r := r) (.use path use n name) (WalkState.after before {})
    rw [htold] at hans
    have hslot := hans.getElem?_told hin (Resolver.useDemand_ne_none hrule) hbefore
    exact lookup_ne_of_takenBy hslot (by simp)
  · intro i htakes
    exact lookup_ne_of_takenBy (htakes.getElem?_eq hbefore) (by simp)

/-- A text. -/
def textSchema : Schema := .inline { type := some "string" } [] [] [] [] none .none

/-- An object with a text, and with a property of a type that there is not. -/
def pagedSchema : Schema :=
  .inline {} [] [] []
    [("page", textSchema), ("part", .inline { type := some "nope" } [] [] [] [] none .none)]
    none .none

/-- A rule that makes texts pages of texts. -/
def pageRule : Rule where
  kind := .type
  source := ⟨"string", none⟩
  target := some "io.Page"
  generics := [.ofName "java.lang.String"]

/-- A rule for the parameters of a name. -/
def idRule : Rule where
  kind := .use
  source := ⟨"id", none⟩
  target := some "io.Id"

/-- A resolver for the object, with these rules. -/
def pagedResolver : Resolver where
  description := { dialect := .early, version := "3.0.0", schemas := [("Paged", pagedSchema)] }
  options :=
    { mappings := [⟨"v2", false, {}, ⟨[pageRule], [idRule], []⟩, .ofList []⟩] }

/-- The component of the object. -/
def pagedNode : SchemaNode := ⟨SchemaKey.component "Paged", pagedSchema⟩

/-- The text of the object. -/
def pageNode : SchemaNode := ⟨(pagedNode.key.child "properties").child "page", textSchema⟩

/-- The object is requested, which fails, and then the parameter with the same schema as its
text. -/
def pagedRequests : List (Resolver × Request) :=
  [(pagedResolver, .component pagedNode "Paged"),
    (pagedResolver, .use none (.parameter "id") pageNode "Id")]

/-- The slot of the object stays reserved, that of the text comes after one for the argument of its
rule, and the parameter has a slot of its own. -/
theorem slots_of_pagedRequests :
    purposes pagedRequests {}
        = [.schema ⟨none, pagedNode.key⟩, .argument, .schema ⟨none, pageNode.key⟩, .use]
      ∧ (WalkState.after pagedRequests {}).types.Records (purposes pagedRequests {})
      ∧ (∀ key, (WalkState.after pagedRequests {}).types.lookup key ≠ some (1 : ℕ))
      ∧ ∀ key, (WalkState.after pagedRequests {}).types.lookup key ≠ some (3 : ℕ) := by
  obtain ⟨hrecords, -, hrequests⟩ := slots_not_shared pagedRequests
  have hargument := (hrequests [] pagedResolver (.component pagedNode "Paged") _ rfl).2
  have huse := (hrequests [(pagedResolver, .component pagedNode "Paged")] pagedResolver
    (.use none (.parameter "id") pageNode "Id") [] rfl).1
  refine ⟨by decide +kernel, hrecords, ?_, ?_⟩
  · apply hargument 1
    have hobject : pagedResolver.Enters none ⟨pagedNode, "Paged", true⟩ {}
        ⟨pagedNode, "Paged", true⟩ := ⟨rfl, rfl, List.not_mem_nil⟩
    have htext : pagedResolver.Enters none (Child.mk pageNode "PagedPage").visit
        (WalkState.start {} (pagedResolver.keyOf none ⟨pagedNode, "Paged", true⟩))
        (Child.mk pageNode "PagedPage").visit := ⟨rfl, by decide +kernel, by decide +kernel⟩
    -- The rule takes one slot before that of the text.
    have hpage : pagedResolver.TakesArgument none 6 (.one (Child.mk pageNode "PagedPage").visit)
        (WalkState.start {} (pagedResolver.keyOf none ⟨pagedNode, "Paged", true⟩)) (1 + 0) :=
      .rule htext rfl rfl rfl Nat.zero_lt_one
    exact .call .component (.children hobject rfl (.head hpage))
  · have htold : ((pagedResolver.ask (.use none (.parameter "id") pageNode "Id")).outcome
        (WalkState.after [(pagedResolver, .component pagedNode "Paged")] {})).1.toOption.map
          Resolved.type = some (3 : ℕ) := by decide +kernel
    obtain ⟨told, hok, htype⟩ := exists_of_map_toOption htold
    rw [← htype]
    exact huse none (.parameter "id") pageNode "Id" ⟨pageNode, "Id", false⟩ told rfl rfl
      (.inl (by decide +kernel)) hok

end ApiTypes
