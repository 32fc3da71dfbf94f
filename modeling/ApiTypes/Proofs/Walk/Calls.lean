import ApiTypes.Proofs.Walk.Stuck

/-!
# Sequences of requests

Requests may be made one after the other on one state, whether they are answered or fail
(`Resolver.after`). A slot without a type was taken by a request that failed
(`Resolver.reserved_of_after`), so a request that is answered tells of a slot from which only filled
slots are reached, unless an earlier request failed and left a slot behind. If one did, it is
answered when it is made again, with a slot that leads to the one that was left behind.
-/

set_option autoImplicit false

namespace ApiTypes

/-! ## Requests one after the other -/

namespace Resolver

/-- The state after requests, whether they are answered or fail. -/
def after (r : Resolver) : List Request → WalkState → WalkState
  | [], s => s
  | q :: rest, s => r.after rest ((r.ask q).outcome s).2

variable {r : Resolver} {s : WalkState}

/-- What every request keeps is kept by all of them. -/
theorem after_invariant {I : WalkState → Prop}
    (hstep : ∀ q s out s', Answered r q s out s' → I s → I s') (qs : List Request) (hs : I s) :
    I (r.after qs s) := by
  induction qs generalizing s with
  | nil => exact hs
  | cons q rest ih => exact ih (hstep q s _ _ (answered_ask q s) hs)

theorem closed_after (qs : List Request) (hs : s.types.Closed) : (r.after qs s).types.Closed :=
  after_invariant (I := fun state => state.types.Closed)
    (fun _ _ _ _ hans hclosed => (hans.closed hclosed).1) qs hs

/-- A request among others that failed and took a slot. -/
def TookSlot (r : Resolver) (qs : List Request) (s : WalkState) (i : Nat) : Prop :=
  ∃ before q rest e, qs = before ++ q :: rest ∧
    ((r.ask q).outcome (r.after before s)).1 = .error e ∧
    (r.after before s).types.size ≤ i ∧
    i < ((r.ask q).outcome (r.after before s)).2.types.size

theorem TookSlot.cons {q : Request} {qs : List Request} {i : Nat}
    (h : r.TookSlot qs ((r.ask q).outcome s).2 i) : r.TookSlot (q :: qs) s i := by
  obtain ⟨before, p, rest, e, rfl, hfails⟩ := h
  exact ⟨q :: before, p, rest, e, rfl, hfails⟩

/-- **A slot without a type was taken by a request that failed.** -/
theorem reserved_of_after (qs : List Request) {i : Nat} (hlt : i < (r.after qs s).types.size)
    (hnone : (r.after qs s).types.get? i = none) :
    (i < s.types.size ∧ s.types.get? i = none) ∨ r.TookSlot qs s i := by
  induction qs generalizing s with
  | nil => exact Or.inl ⟨hlt, hnone⟩
  | cons q rest ih =>
      have hans := answered_ask (r := r) q s
      rcases ih hlt hnone with ⟨hlt₁, hnone₁⟩ | htook
      · by_cases hi : i < s.types.size
        · rw [hans.grows.get?_eq i hi] at hnone₁
          exact Or.inl ⟨hi, hnone₁⟩
        · have hle := Nat.le_of_not_lt hi
          cases hout : ((r.ask q).outcome s).1 with
          | error e => exact Or.inr ⟨[], q, rest, e, rfl, hout, hle, hlt₁⟩
          | ok told =>
              have hfilled := hans.filled hout hle hlt₁
              rw [hnone₁] at hfilled
              cases hfilled
      · exact Or.inr htook.cons

end Resolver

/-! ## Failures that store nothing -/

namespace Resolver

/-- The requests that fail store nothing. -/
def Harmless (r : Resolver) (qs : List Request) (s : WalkState) : Prop :=
  ∀ before q rest e, qs = before ++ q :: rest →
    ((r.ask q).outcome (r.after before s)).1 = .error e →
    ((r.ask q).outcome (r.after before s)).2 = r.after before s

variable {r : Resolver} {s : WalkState}

theorem Harmless.not_tookSlot {qs : List Request} (h : r.Harmless qs s) (i : Nat) :
    ¬ r.TookSlot qs s i := by
  rintro ⟨before, q, rest, e, heq, hfails, hle, hlt⟩
  rw [h before q rest e heq hfails] at hlt
  omega

theorem Harmless.tail {q : Request} {qs : List Request} (h : r.Harmless (q :: qs) s) :
    r.Harmless qs ((r.ask q).outcome s).2 := by
  intro before p rest e heq hfails
  exact h (q :: before) p rest e (by rw [heq]; rfl) hfails

/-- Requests of which those that fail store nothing leave everything met. -/
theorem Harmless.settled (hd : r.description.Tidy) {qs : List Request} (h : r.Harmless qs s)
    (hqs : ∀ q ∈ qs, q.Proper r.description)
    (hs : r.Settled (Visit.Proper r.description) s) :
    r.Settled (Visit.Proper r.description) (r.after qs s) := by
  induction qs generalizing s with
  | nil => exact hs
  | cons q rest ih =>
      refine ih h.tail (fun p hp => hqs p (List.mem_cons_of_mem _ hp)) ?_
      have hans := answered_ask (r := r) q s
      cases hout : ((r.ask q).outcome s).1 with
      | error e =>
          have hsame : ((r.ask q).outcome s).2 = s := h [] q rest e rfl hout
          rw [hsame]
          exact hs
      | ok told =>
          rw [hout] at hans
          exact hans.settled hd (hqs q List.mem_cons_self) hs

theorem Harmless.init {before rest : List Request} (h : r.Harmless (before ++ rest) s) :
    r.Harmless before s := by
  intro before' p rest' e heq hfails
  refine h before' p (rest' ++ rest) e ?_ hfails
  rw [heq, List.append_assoc]
  rfl

end Resolver

/-- A component leads to another one, or is that one. -/
def Request.LeadsTo (r : Resolver) (q p : Request) : Prop :=
  q = p ∨ ∃ n name w m other x, q = .component n name ∧ p = .component m other ∧
    r.enter ⟨n, name, true⟩ = .ok w ∧ r.enter ⟨m, other, true⟩ = .ok x ∧
    Relation.ReflTransGen (r.Link none) w.node.key x.node.key

open Resolver in
/-- **What a request tells after others, of which some have failed.** An answer is about a slot of
the store from which only slots of the store are reached, and each of them is filled, unless it had
no type at the outset or was taken by a request that failed. A request that fails stores nothing, or
it is answered when it is made again, with a slot from which one without a type is reached. Where
all failures store nothing, only filled slots are reached, and a component stays without an answer
if it failed or leads to one that did. -/
theorem Resolver.ask_after (r : Resolver) (qs : List Request) (q : Request) {s : WalkState}
    (hclosed : s.types.Closed) :
    (∀ told s', (r.ask q).outcome (r.after qs s) = (.ok told, s') →
      (told.type : Nat) < s'.types.size ∧ ∀ i, s'.types.Reaches told.type i →
        i < s'.types.size ∧ ((s'.types.get? i).isSome = true ∨
          (i < s.types.size ∧ s.types.get? i = none) ∨ r.TookSlot qs s i)) ∧
    (∀ e s', (r.ask q).outcome (r.after qs s) = (.error e, s') →
      s' = r.after qs s ∨ ∃ told s'', (r.ask q).outcome s' = (.ok told, s'') ∧
        s''.types.Hollow told.type) ∧
    (r.Harmless qs s → r.Settled (Visit.Proper r.description) s →
      (∀ told s', (r.ask q).outcome (r.after qs s) = (.ok told, s') →
        ∀ i, s'.types.Reaches told.type i → (s'.types.get? i).isSome = true) ∧
      (r.description.Tidy → (∀ p ∈ qs, p.Proper r.description) → q.Proper r.description →
        ∀ before p rest e, qs = before ++ p :: rest →
          ((r.ask p).outcome (r.after before s)).1 = .error e → q.LeadsTo r p →
          ∃ e', ((r.ask q).outcome (r.after qs s)).1 = .error e')) := by
  have hans := answered_ask (r := r) q (r.after qs s)
  have htold : ∀ told s', (r.ask q).outcome (r.after qs s) = (.ok told, s') →
      (told.type : Nat) < s'.types.size ∧ ∀ i, s'.types.Reaches told.type i →
        i < s'.types.size ∧ ((s'.types.get? i).isSome = true ∨
          (i < s.types.size ∧ s.types.get? i = none) ∨ r.TookSlot qs s i) := by
    intro told s' hout
    rw [hout] at hans
    obtain ⟨hclosed', hlt⟩ := hans.closed (closed_after qs hclosed)
    refine ⟨hlt told rfl, fun i hreach => ?_⟩
    have hi := hclosed'.lt_of_reaches hreach (hlt told rfl)
    refine ⟨hi, ?_⟩
    cases hget : s'.types.get? i with
    | some t => exact Or.inl rfl
    | none =>
        by_cases hold : i < (r.after qs s).types.size
        · rw [hans.grows.get?_eq i hold] at hget
          exact Or.inr (reserved_of_after qs hold hget)
        · have hfilled := hans.filled rfl (Nat.le_of_not_lt hold) hi
          rw [hget] at hfilled
          cases hfilled
  refine ⟨htold, fun e s' hout => ?_, fun hharmless hs => ⟨fun told s' hout i hreach => ?_, ?_⟩⟩
  · rw [hout] at hans
    refine hans.retry.imp_right ?_
    rintro ⟨told, s'', hagain, hhollow⟩
    exact ⟨told, s'', hagain.outcome_eq, hhollow⟩
  · rcases ((htold told s' hout).2 i hreach).2 with hfilled | ⟨hlt, hnone⟩ | htook
    · exact hfilled
    · have hfilled := hs.filled i hlt
      rw [hnone] at hfilled
      cases hfilled
    · exact absurd htook (hharmless.not_tookSlot i)
  · intro hd hqs hq before p rest e heq hfails hleads
    have hs₁ := hharmless.settled hd hqs hs
    have hbefore : r.Harmless before s := by
      rw [heq] at hharmless
      exact hharmless.init
    have hp : p ∈ qs := by
      rw [heq]
      exact List.mem_append_right _ List.mem_cons_self
    have hs₀ := hbefore.settled hd (fun p' hp' => hqs p' (by
      rw [heq]
      exact List.mem_append_left _ hp')) hs
    have hfailed := answered_ask (r := r) p (r.after before s)
    rw [hfails, hharmless before p rest e heq hfails] at hfailed
    rcases hleads with rfl | ⟨n, name, w, m, other, x, rfl, rfl, hw, hx, hlink⟩
    · exact hfailed.fails_again hd hq hs₀.pending_eq hs₁ hans
    · exact hfailed.fails_of_leads hd (hqs _ hp) hq hs₀.pending_eq hx hw hlink hs₁ hans

/-- An object with a property of a type that there is not. -/
def brokenSchema : Schema :=
  .inline {} [] [] [] [("part", .inline { type := some "nope" } [] [] [] [] none .none)] none .none

/-- A description of such an object alone. -/
def brokenDescription : Description :=
  { dialect := .early, version := "3.0.0", schemas := [("Broken", brokenSchema)] }

/-- The request for it. -/
def brokenRequest : Request :=
  .component ⟨SchemaKey.component "Broken", brokenSchema⟩ "Broken"

theorem ask_broken_twice :
    ∃ told s₁ s₂,
      ((Resolver.mk brokenDescription {}).ask brokenRequest).outcome {}
        = (.error (.unknownSchemaType "nope" "#/components/schemas/Broken/properties/part"), s₁) ∧
      ((Resolver.mk brokenDescription {}).ask brokenRequest).outcome s₁ = (.ok told, s₂) ∧
      s₂.types.Hollow told.type ∧
      (Resolver.mk brokenDescription {}).TookSlot [brokenRequest] {} told.type := by
  have hends : (match ((Resolver.mk brokenDescription {}).ask brokenRequest).outcome {} with
      | (.error e, s₁) =>
          decide (e = .unknownSchemaType "nope" "#/components/schemas/Broken/properties/part") &&
            match ((Resolver.mk brokenDescription {}).ask brokenRequest).outcome s₁ with
            | (.ok told, s₂) => (s₂.types.get? told.type).isNone
            | (.error _, _) => false
      | (.ok _, _) => false) = true := by
    decide +kernel
  cases hfirst : ((Resolver.mk brokenDescription {}).ask brokenRequest).outcome {} with
  | mk out s₁ =>
      rw [hfirst] at hends
      cases out with
      | ok told => cases hends
      | error e =>
          obtain ⟨he, hends⟩ := Bool.and_eq_true_iff.mp hends
          rw [of_decide_eq_true he]
          cases hsecond : ((Resolver.mk brokenDescription {}).ask brokenRequest).outcome s₁ with
          | mk out s₂ =>
              rw [hsecond] at hends
              cases out with
              | error e => cases hends
              | ok told =>
                  have hnone : s₂.types.get? told.type = none :=
                    Option.isNone_iff_eq_none.mp hends
                  have hafter : (Resolver.mk brokenDescription {}).after [brokenRequest] {} = s₁ :=
                    congrArg Prod.snd hfirst
                  obtain ⟨hlt, hreached⟩ := ((Resolver.mk brokenDescription {}).ask_after
                    [brokenRequest] brokenRequest TypeStore.Closed.empty).1 told s₂
                    (by rw [hafter]; exact hsecond)
                  refine ⟨told, s₁, s₂, rfl, hsecond, .of_get?_eq_none hlt hnone, ?_⟩
                  rcases (hreached told.type Relation.ReflTransGen.refl).2 with
                    hfilled | ⟨hold, _⟩ | htook
                  · rw [hnone] at hfilled
                    cases hfilled
                  · exact absurd hold (Nat.not_lt_zero _)
                  · exact htook

end ApiTypes
