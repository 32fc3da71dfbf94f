import ApiTypes.Resolve.Api

/-!
# Outcomes of walks

How a part of a walk ends when it starts from a state: with a value or an error, and with the
state that it leaves behind. Each way of building a walk has one equation here
(`outcome_bind_ok`, `outcome_onTypes`, ...), so that no later proof opens the monad.
-/

set_option autoImplicit false

namespace ApiTypes

namespace Walk

variable {α β : Type}

/-- How a walk ends that starts from a state, and what it leaves behind. -/
def outcome (w : Walk α) (s : WalkState) : Except Error α × WalkState := w.run s

@[simp] theorem outcome_pure (a : α) (s : WalkState) :
    (pure a : Walk α).outcome s = (.ok a, s) := rfl

@[simp] theorem outcome_throw (e : Error) (s : WalkState) :
    (throw e : Walk α).outcome s = (.error e, s) := rfl

/-- What follows a walk starts where the walk ended, unless it ended with an error. -/
theorem outcome_bind (w : Walk α) (f : α → Walk β) (s : WalkState) :
    (w >>= f).outcome s =
      match w.outcome s with
      | (.ok a, s') => (f a).outcome s'
      | (.error e, s') => (.error e, s') := by
  show (ExceptT.bind w f).run s = _
  simp only [ExceptT.bind, ExceptT.run, ExceptT.mk, outcome]
  show (StateT.bind w (ExceptT.bindCont f)) s = _
  simp only [StateT.bind]
  show ExceptT.bindCont f (w s).1 (w s).2 = _
  rcases w s with ⟨result, s'⟩
  cases result with
  | ok a => rfl
  | error e => rfl

theorem outcome_bind_ok {w : Walk α} {s s' : WalkState} {a : α} (h : w.outcome s = (.ok a, s'))
    (f : α → Walk β) : (w >>= f).outcome s = (f a).outcome s' := by
  rw [outcome_bind, h]

theorem outcome_bind_error {w : Walk α} {s s' : WalkState} {e : Error}
    (h : w.outcome s = (.error e, s')) (f : α → Walk β) :
    (w >>= f).outcome s = (.error e, s') := by
  rw [outcome_bind, h]

@[simp] theorem outcome_throw_bind (e : Error) (f : α → Walk β) (s : WalkState) :
    ((throw e : Walk α) >>= f).outcome s = (.error e, s) := by
  rw [outcome_bind, outcome_throw]

@[simp] theorem outcome_get_bind (f : WalkState → Walk β) (s : WalkState) :
    ((get : Walk WalkState) >>= f).outcome s = (f s).outcome s := by
  rw [outcome_bind]
  rfl

@[simp] theorem outcome_modify_bind (g : WalkState → WalkState) (f : PUnit → Walk β)
    (s : WalkState) :
    ((modify g : Walk PUnit) >>= f).outcome s = (f ⟨⟩).outcome (g s) := by
  rw [outcome_bind]
  rfl

@[simp] theorem outcome_ofExcept (result : Except Error α) (s : WalkState) :
    (ofExcept result).outcome s = (result, s) := by
  cases result with
  | ok a => rfl
  | error e => rfl

@[simp] theorem outcome_onTypes (g : TypeStore → α × TypeStore) (s : WalkState) :
    (onTypes g).outcome s = (.ok (g s.types).1, { s with types := (g s.types).2 }) := rfl

@[simp] theorem outcome_modifyTypes (g : TypeStore → TypeStore) (s : WalkState) :
    (modifyTypes g).outcome s = (.ok ⟨⟩, { s with types := g s.types }) := rfl

/-- An attempt ends with how the walk ended. -/
@[simp] theorem outcome_attempt (w : Walk α) (s : WalkState) :
    (attempt w).outcome s = (.ok (w.outcome s).1, (w.outcome s).2) := rfl

/-- Two walks that end alike from every state are the same walk. -/
theorem ext_outcome {v w : Walk α} (h : ∀ s, v.outcome s = w.outcome s) : v = w :=
  funext h

end Walk

end ApiTypes
