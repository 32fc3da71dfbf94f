import ApiTypes.Proofs.Walk.Closed
import ApiTypes.Proofs.Walk.Reach

/-!
# Slots are filled once

The walk is written here once more against a way of filling slots (`Filling`). With the one that
fills whatever is there it is the walk that runs (`Resolver.askBy_free`); it is the same walk with
one that fails wherever a slot is not there or has a type already (`Resolver.askBy_once`). So a
request fills no slot twice, and none that was there before. Together with `Answered.grows` this is
all that a request may change (`Resolver.ask_frame`).
-/

set_option autoImplicit false

namespace ApiTypes

/-- What is done to fill a slot. -/
abbrev Filling := TypeId → ModelType → Walk Unit

namespace Filling

/-- Fills a slot whatever is there. -/
def free : Filling := fun id t => Walk.modifyTypes (·.fill id t)

/-- Fills a slot that is reserved; fails if there is no such slot, or a type in it. -/
def once (fault : Error) : Filling := fun id t => do
  let types := (← get).types
  if id < types.size ∧ types.isPending id = true then free id t else throw fault

/-- A filling that fills the slots that are reserved, whatever it does to others. -/
def FillsReserved (fill : Filling) : Prop :=
  ∀ (id : Nat) (t : ModelType) (s : WalkState), id < s.types.size → s.types.get? id = none →
    (fill id t).outcome s = (free id t).outcome s

theorem fillsReserved_free : free.FillsReserved := fun _ _ _ _ _ => rfl

theorem fillsReserved_once (fault : Error) : (once fault).FillsReserved := by
  intro id t s hlt hnone
  have hpending : id < s.types.size ∧ s.types.isPending id = true := by
    refine ⟨hlt, ?_⟩
    rw [TypeStore.isPending, hnone]
    rfl
  rw [once, Walk.outcome_get_bind, if_pos hpending]

end Filling

namespace Resolver

/-! ## The walk with a filling -/

/-- Makes the type that a schema demands with a filling. -/
def meetBy (fill : Filling) (recur : SchemaNode → String → Walk TypeId) (key : MemoKey) :
    Demand → Walk TypeId
  | .composite children shape => do
      let id ← Walk.onTypes TypeStore.reserve
      Walk.modifyTypes (·.remember key id)
      let found ← resolveEach recur children
      fill id (Demand.filled shape found)
      pure id
  | demand => meet recur key demand

/-- Resolves a schema that was not resolved before, its type being made in some way. -/
def settleBy (r : Resolver) (path : Option String) (w : Visit) (make : Walk TypeId) :
    Walk TypeId := do
  if r.keyOf path w ∈ (← get).pending then throw (.cyclicReference w.node.key.text)
  modify (·.push (r.keyOf path w))
  let built ← Walk.attempt make
  modify (·.pop (r.keyOf path w))
  let id ← Walk.ofExcept built
  Walk.modifyTypes (·.remember (r.keyOf path w) id)
  r.annotate path w.node w.features id
  pure id

/-- Resolves a visit with a filling, nested calls up to a depth. -/
def resolveVisitBy (fill : Filling) (r : Resolver) (path : Option String) :
    Nat → Visit → Walk TypeId
  | 0, v => throw (.tooDeep v.node.key.text)
  | depth + 1, v => do
      let w ← Walk.ofExcept (r.enter v)
      match (← get).types.lookup (r.keyOf path w) with
      | some id => pure id
      | none =>
          let recur (n : SchemaNode) (name : String) : Walk TypeId :=
            r.resolveVisitBy fill path depth ⟨n, name, false⟩
          r.settleBy path w (meetBy fill recur (r.keyOf path w) (r.demand path w))

/-- Resolves a schema for a use with a filling, references being followed. -/
def serveBy (fill : Filling) (r : Resolver) (path : Option String) (use : Use) (w : Visit) :
    Walk Resolved :=
  match r.useDemand path use w with
  | some demand => do
      let recur (n : SchemaNode) (name : String) : Walk TypeId :=
        r.resolveVisitBy fill path (r.depthFor n) ⟨n, name, false⟩
      let id ← meetBy fill recur (r.keyOf path w) demand
      r.annotate path w.node w.features id
      pure (r.answer path use w id)
  | none => do
      let id ← r.resolveVisitBy fill path (r.depthFor w.node) w
      pure (r.answer path use w id)

/-- Answers a request with a filling. -/
def askBy (fill : Filling) (r : Resolver) : Request → Walk Resolved
  | .component n name => do
      let id ← r.resolveVisitBy fill none (r.depthFor n) ⟨n, name, true⟩
      pure ⟨id, []⟩
  | .use path use n name => Walk.ofExcept (r.enter ⟨n, name, false⟩) >>= r.serveBy fill path use

/-! ## The filling does not matter -/

variable {fill : Filling} {r : Resolver} {path : Option String}

theorem resolveNew_eq_settleBy (recur : SchemaNode → String → Walk TypeId) (w : Visit) :
    r.resolveNew path recur w.node w.name w.isNamed (r.keyOf path w)
      = r.settleBy path w (meet recur (r.keyOf path w) (r.demand path w)) := by
  rw [← @build_eq_meet recur r (r.keyOf path w) path w]
  rfl

/-- What is made matters only from the state in which the schema is being resolved. -/
theorem settleBy_congr {w : Visit} {make make' : Walk TypeId} {s : WalkState}
    (h : make.outcome (s.push (r.keyOf path w)) = make'.outcome (s.push (r.keyOf path w))) :
    (r.settleBy path w make).outcome s = (r.settleBy path w make').outcome s := by
  unfold settleBy
  rw [Walk.outcome_get_bind, Walk.outcome_get_bind]
  by_cases hmem : r.keyOf path w ∈ s.pending
  · simp only [if_pos hmem, Walk.outcome_throw_bind]
  · simp only [if_neg hmem, Walk.outcome_modify_bind]
    rw [Walk.outcome_bind (Walk.attempt make), Walk.outcome_bind (Walk.attempt make'),
      Walk.outcome_attempt, Walk.outcome_attempt, h]

theorem meetBy_of_not_composite (recur : SchemaNode → String → Walk TypeId) (key : MemoKey)
    {demand : Demand} (h : ∀ children shape, ¬ demand = .composite children shape) :
    meetBy fill recur key demand = meet recur key demand := by
  cases demand with
  | fault e => rfl
  | block inner last => rfl
  | wrapper item shape => rfl
  | composite children shape => exact absurd rfl (h children shape)

/-- **A slot is still reserved when it is filled.** Nothing that is done between changes a slot that
was there, so the filling finds the slot as it was taken. -/
theorem outcome_meetBy_composite (hfill : fill.FillsReserved) (depth : Nat) (key : MemoKey)
    (children : List Child) (shape : ModelType) (s : WalkState) :
    (meetBy fill (r.below path depth) key (.composite children shape)).outcome (s.push key)
      = (meet (r.below path depth) key (.composite children shape)).outcome (s.push key) := by
  rw [outcome_meet_composite, meetBy, Walk.outcome_bind, Walk.outcome_onTypes]
  show (_ >>= _ : Walk TypeId).outcome _ = _
  rw [Walk.outcome_bind, Walk.outcome_modifyTypes]
  show (_ >>= _ : Walk TypeId).outcome (s.start key) = _
  have hwalked := walked_resolveEach_of (@walked_resolveVisit r path depth) children (s.start key)
  rw [Walk.outcome_bind]
  cases ho : (resolveEach (r.below path depth) children).outcome (s.start key) with
  | mk result s₁ =>
      rw [ho] at hwalked
      cases result with
      | error e => rfl
      | ok found =>
          -- The schemas below left the slot as it was reserved.
          obtain ⟨_, hnone, hlt⟩ := hwalked.reserved
          have hfilled : (fill s.types.size (Demand.filled shape found)).outcome s₁
              = (.ok ⟨⟩, s₁.withTypes (s₁.types.fill s.types.size (Demand.filled shape found))) :=
            hfill _ _ _ hlt hnone
          exact Walk.outcome_bind_ok hfilled _

/-- **The walk is the same with every filling that fills reserved slots.** -/
theorem resolveVisitBy_eq (hfill : fill.FillsReserved) (depth : Nat) (v : Visit) :
    r.resolveVisitBy fill path depth v = r.resolveVisit path depth v := by
  induction depth generalizing v with
  | zero => rfl
  | succ depth ih =>
      apply Walk.ext_outcome
      intro s
      have hrecur : (fun n name => r.resolveVisitBy fill path depth ⟨n, name, false⟩)
          = r.below path depth := by
        funext n name
        exact ih ⟨n, name, false⟩
      rw [resolveVisitBy, hrecur, outcome_succ, Walk.outcome_bind, Walk.outcome_ofExcept]
      cases r.enter v with
      | error e => rfl
      | ok w =>
          simp only
          rw [Walk.outcome_get_bind]
          cases s.types.lookup (r.keyOf path w) with
          | some id => rfl
          | none =>
              simp only
              rw [resolveNew_eq_settleBy]
              refine settleBy_congr ?_
              cases hd : r.demand path w with
              | fault e => rfl
              | block inner last => rfl
              | wrapper item shape => rfl
              | composite children shape =>
                  exact outcome_meetBy_composite hfill depth _ children shape s

theorem serveBy_eq (hfill : fill.FillsReserved) (use : Use) (w : Visit) :
    r.serveBy fill path use w = r.serve path use w := by
  have hrecur : (fun n name => r.resolveVisitBy fill path (r.depthFor n) ⟨n, name, false⟩)
      = r.belowUse path := by
    funext n name
    exact resolveVisitBy_eq hfill _ _
  unfold serveBy serve
  rw [hrecur]
  cases hd : r.useDemand path use w with
  | none => rw [resolveVisitBy_eq hfill]
  | some demand =>
      simp only
      rw [meetBy_of_not_composite]
      rintro children shape rfl
      exact r.useDemand_ne_composite path hd

/-- **A request is answered in the same way with every filling that fills reserved slots.** -/
theorem askBy_eq (hfill : fill.FillsReserved) (q : Request) : r.askBy fill q = r.ask q := by
  cases q with
  | component n name =>
      rw [askBy, resolveVisitBy_eq hfill]
      rfl
  | use path use n name =>
      rw [askBy, ask_use_eq]
      congr 1
      funext w
      exact serveBy_eq hfill use w

/-- The walk that runs fills slots whatever is there. -/
theorem askBy_free (q : Request) : r.askBy .free q = r.ask q :=
  askBy_eq Filling.fillsReserved_free q

/-- It never fills a slot that is not there or has a type. -/
theorem askBy_once (fault : Error) (q : Request) : r.askBy (.once fault) q = r.ask q :=
  askBy_eq (Filling.fillsReserved_once fault) q

end Resolver

/-! ## What a request leaves as it was -/

namespace Answered

variable {r : Resolver} {path : Option String} {use : Use} {n : SchemaNode} {name : String}
  {w : Visit} {s s' : WalkState} {out : Except Error Resolved}

/-- A use with a demand of its own gets a slot of its own. -/
theorem size_le_of_useDemand (h : Answered r (.use path use n name) s out s')
    (hin : r.enter ⟨n, name, false⟩ = .ok w) {demand : Demand}
    (hd : r.useDemand path use w = some demand) {told : Resolved} (hok : out = .ok told) :
    s.types.size ≤ told.type := by
  cases h with
  | strayed hv => cases hok
  | shared hv hd' =>
      cases hin.symm.trans hv
      cases hd.symm.trans hd'
  | sharedFails => cases hok
  | fault => cases hok
  | block hv hd' =>
      cases hok
      exact Nat.le_add_right _ _
  | wrapper hv hd' hw =>
      cases hok
      exact hw.grows.size_le
  | wrapperFails => cases hok

/-- The annotations of a use are told with its type, and stored nowhere. -/
theorem annotations_eq (h : Answered r (.use path use n name) s out s')
    (hin : r.enter ⟨n, name, false⟩ = .ok w) {told : Resolved} (hok : out = .ok told) :
    told.annotations = r.usageAnnotations path use w.features := by
  cases h with
  | strayed hv => cases hok
  | shared hv =>
      cases hin.symm.trans hv
      cases hok
      rfl
  | sharedFails => cases hok
  | fault => cases hok
  | block hv =>
      cases hin.symm.trans hv
      cases hok
      rfl
  | wrapper hv =>
      cases hin.symm.trans hv
      cases hok
      rfl
  | wrapperFails => cases hok

end Answered

/-- A use without a demand of its own, of a schema that was resolved, changes nothing. -/
theorem Resolver.outcome_ask_of_lookup {r : Resolver} {path : Option String} {use : Use}
    {n : SchemaNode} {name : String} {w : Visit} {s : WalkState}
    (hin : r.enter ⟨n, name, false⟩ = .ok w) (hd : r.useDemand path use w = none) {id : Nat}
    (hl : s.types.lookup (r.keyOf path w) = some id) :
    (r.ask (.use path use n name)).outcome s = (.ok (r.answer path use w id), s) := by
  have hfound : Walked r path (r.depthFor w.node) (.one w) s (.ok id) s :=
    .found (enter_enter hin) hl
  exact (Answered.shared hin hd hfound).outcome_eq

/-- **What a request may change.** However it ends, it only extends the store, leaves what is being
resolved as it was, and fills no slot that has a type. The slot that is remembered for the schema of
a use stays as it was: a use without a demand of its own shares it and changes nothing at all, and a
use with one gets a new slot; annotations of the use alone are only told. -/
theorem Resolver.ask_frame (r : Resolver) (q : Request) (s : WalkState) :
    Grows s.types ((r.ask q).outcome s).2.types ∧
    ((r.ask q).outcome s).2.pending = s.pending ∧
    r.askBy .free q = r.ask q ∧
    (∀ fault, r.askBy (.once fault) q = r.ask q) ∧
    ∀ path use n name w (id : Nat), q = .use path use n name → r.enter ⟨n, name, false⟩ = .ok w →
      id < s.types.size → s.types.lookup (r.keyOf path w) = some id →
      ((r.ask q).outcome s).2.types.lookup (r.keyOf path w) = some id ∧
      ((r.ask q).outcome s).2.types.get? id = s.types.get? id ∧
      ((r.ask q).outcome s).2.types.annotations id = s.types.annotations id ∧
      (r.useDemand path use w = none →
        (r.ask q).outcome s = (.ok (r.answer path use w id), s)) ∧
      ∀ told, ((r.ask q).outcome s).1 = .ok told →
        told.annotations = r.usageAnnotations path use w.features ∧
        (¬ r.useDemand path use w = none → s.types.size ≤ told.type) := by
  have hans := answered_ask (r := r) q s
  refine ⟨hans.grows, hans.pending_eq, askBy_free q, fun fault => askBy_once fault q, ?_⟩
  rintro path use n name w id rfl hin hlt hl
  refine ⟨hans.grows.lookup_eq _ _ hl, hans.grows.get?_eq id hlt, hans.grows.annotations_eq id hlt,
    fun hd => outcome_ask_of_lookup hin hd hl, fun told hok => ?_⟩
  refine ⟨hans.annotations_eq hin hok, fun hsome => ?_⟩
  obtain ⟨demand, hd⟩ := Option.ne_none_iff_exists'.mp hsome
  exact hans.size_le_of_useDemand hin hd hok

/-! ## A rule for a parameter -/

/-- A rule that gives the parameters of a name a type. -/
def limitRule : Rule where
  kind := .use
  source := ⟨"limit", none⟩
  target := some "com.acme.Limit"

/-- A description of a number. -/
def limitDescription : Description where
  dialect := .early
  version := "3.0.0"
  schemas := [("Limit", .inline { type := some "integer" } [] [] [] [] none .none)]

/-- The description and the rule. -/
def limitResolver : Resolver where
  description := limitDescription
  options := { mappings := [⟨"v2", false, {}, { parameters := [limitRule] }, .empty⟩] }

/-- A store in which the number was resolved. -/
def limitTypes : TypeStore where
  slots := #[{ type := some (.primitive .integer {} false) }]
  memo := [(⟨none, SchemaKey.component "Limit"⟩, 0)]

/-- The state with this store. -/
def limitState : WalkState := { types := limitTypes }

/-- A parameter of the number. -/
def limitRequest : Request :=
  .use (some "/pets") (.parameter "limit")
    ⟨⟨"#/paths"⟩, .reference "#/components/schemas/Limit"⟩ "PetsLimit"

/-- The parameter gets a slot of its own, and that of the number stays as it was. -/
theorem ask_frame_limit :
    ∃ w told s',
      limitResolver.enter ⟨⟨⟨"#/paths"⟩, .reference "#/components/schemas/Limit"⟩, "PetsLimit",
        false⟩ = .ok w ∧
      (limitResolver.ask limitRequest).outcome limitState = (.ok told, s') ∧
      limitState.types.lookup (limitResolver.keyOf (some "/pets") w) = some 0 ∧
      s'.types.lookup (limitResolver.keyOf (some "/pets") w) = some 0 ∧
      s'.types.get? (0 : Nat) = some (.primitive .integer {} false) ∧
      s'.types.annotations (0 : Nat) = [] ∧ 1 ≤ (told.type : Nat) := by
  have hends : (match limitResolver.enter ⟨⟨⟨"#/paths"⟩,
          .reference "#/components/schemas/Limit"⟩, "PetsLimit", false⟩,
        ((limitResolver.ask limitRequest).outcome limitState).1 with
      | .ok w, .ok _ =>
          decide (limitState.types.lookup (limitResolver.keyOf (some "/pets") w) = some 0) &&
            (limitResolver.useDemand (some "/pets") (.parameter "limit") w).isSome
      | _, _ => false) = true := by
    decide +kernel
  obtain ⟨_, _, _, _, huse⟩ := limitResolver.ask_frame limitRequest limitState
  cases hin : limitResolver.enter ⟨⟨⟨"#/paths"⟩, .reference "#/components/schemas/Limit"⟩,
      "PetsLimit", false⟩ with
  | error e =>
      rw [hin] at hends
      cases hends
  | ok w =>
      rw [hin] at hends
      cases ho : (limitResolver.ask limitRequest).outcome limitState with
      | mk out s' =>
          rw [ho] at hends
          cases out with
          | error e => cases hends
          | ok told =>
              obtain ⟨hl, hsome⟩ := Bool.and_eq_true_iff.mp hends
              obtain ⟨hlookup, hget, hannotations, _, htold⟩ :=
                huse _ _ _ _ w 0 rfl hin Nat.zero_lt_one (of_decide_eq_true hl)
              rw [ho] at hlookup hget hannotations htold
              have hown : ¬ limitResolver.useDemand (some "/pets") (.parameter "limit") w = none :=
                Option.isSome_iff_ne_none.mp hsome
              exact ⟨w, told, s', rfl, rfl, of_decide_eq_true hl, hlookup, hget, hannotations,
                (htold told rfl).2 hown⟩

end ApiTypes
