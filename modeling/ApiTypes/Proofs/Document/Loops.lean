import Mathlib.Data.List.Forall2

/-!
# Loops that may fail

A loop over a list takes one step for each item, and stops at the first step that fails. It succeeds
where all steps do, with their results in order (`mapM_eq_ok_iff`). If it fails, one of the steps is
to blame (`error_of_mapM`), and leaving out others does not help (`mapM_filter_error`).
-/

set_option autoImplicit false

namespace ApiTypes

/-! ## Lists that are related item by item -/

section Related

variable {α β : Type} {R : α → β → Prop} {as : List α} {bs : List β}

theorem exists_of_mem_forall₂ (h : List.Forall₂ R as bs) {b : β} (hb : b ∈ bs) :
    ∃ a ∈ as, R a b := by
  induction h with
  | nil => cases hb
  | @cons a b' as bs hab _ ih =>
      rcases List.mem_cons.mp hb with rfl | hmem
      · exact ⟨a, List.mem_cons_self, hab⟩
      · obtain ⟨a', ha', hr⟩ := ih hmem
        exact ⟨a', List.mem_cons_of_mem _ ha', hr⟩

theorem exists_of_mem_forall₂_left (h : List.Forall₂ R as bs) {a : α} (ha : a ∈ as) :
    ∃ b ∈ bs, R a b :=
  exists_of_mem_forall₂ h.flip ha

theorem exists_of_getElem?_forall₂ (h : List.Forall₂ R as bs) {i : Nat} {b : β}
    (hb : bs[i]? = some b) : ∃ a, as[i]? = some a ∧ R a b := by
  induction h generalizing i with
  | nil => cases hb
  | @cons a b' as bs hab _ ih =>
      cases i with
      | zero =>
          cases hb
          exact ⟨a, rfl, hab⟩
      | succ i => exact ih hb

/-- What related items have in common, related lists have in common. -/
theorem map_eq_map_of_forall₂ {γ : Type} {f : α → γ} {g : β → γ} (h : List.Forall₂ R as bs)
    (hR : ∀ a b, R a b → f a = g b) : as.map f = bs.map g := by
  rw [← List.forall₂_eq_eq_eq, List.forall₂_map_left_iff, List.forall₂_map_right_iff]
  exact h.imp hR

/-- What is related to a list in two parts has two parts. -/
theorem exists_of_forall₂_append {as₁ as₂ : List α} (h : List.Forall₂ R (as₁ ++ as₂) bs) :
    ∃ bs₁ bs₂, bs = bs₁ ++ bs₂ ∧ List.Forall₂ R as₁ bs₁ ∧ List.Forall₂ R as₂ bs₂ := by
  have htake := List.forall₂_take as₁.length h
  have hdrop := List.forall₂_drop as₁.length h
  rw [List.take_left] at htake
  rw [List.drop_left] at hdrop
  exact ⟨_, _, (List.take_append_drop _ _).symm, htake, hdrop⟩

end Related

/-! ## Computations that may fail -/

section Steps

variable {ε α β : Type} {x : Except ε α}

/-- The steps of an `Except` computation that succeeds succeed. -/
theorem exists_of_bind_ok {f : α → Except ε β} {b : β} (h : x >>= f = .ok b) :
    ∃ a, x = .ok a ∧ f a = .ok b := by
  cases x with
  | error e => cases h
  | ok a => exact ⟨a, rfl, h⟩

theorem bind_ok_of_ok {f : α → Except ε β} {a : α} {b : β} (hx : x = .ok a) (hf : f a = .ok b) :
    x >>= f = .ok b := by
  rw [hx]
  exact hf

theorem error_of_bind {f : α → Except ε β} {e : ε} (h : x >>= f = .error e) :
    x = .error e ∨ ∃ a, f a = .error e := by
  cases x with
  | error e' =>
      cases h
      exact Or.inl rfl
  | ok a => exact Or.inr ⟨a, h⟩

/-- An `Except` computation of whose result something is known succeeds. -/
theorem exists_of_map_toOption {f : α → β} {b : β} (h : x.toOption.map f = some b) :
    ∃ a, x = .ok a ∧ f a = b := by
  cases x with
  | error e => cases h
  | ok a => exact ⟨a, rfl, Option.some.inj h⟩

/-- The error of an `Except` computation that fails. -/
def failure? : Except ε α → Option ε
  | .ok _ => none
  | .error e => some e

theorem failure?_eq_some_iff {e : ε} : failure? x = some e ↔ x = .error e := by
  cases x with
  | ok a => exact ⟨nofun, nofun⟩
  | error e' =>
      exact ⟨fun h => congrArg _ (Option.some.inj h), fun h => congrArg _ (Except.error.inj h)⟩

end Steps

/-! ## Loops -/

section Loops

variable {ε α β : Type} {f : α → Except ε β} {l : List α}

/-- **A loop succeeds where all its steps do**, with their results in order. -/
theorem mapM_eq_ok_iff {found : List β} :
    l.mapM f = .ok found ↔ List.Forall₂ (fun a b => f a = .ok b) l found := by
  constructor
  · intro h
    induction l generalizing found with
    | nil =>
        cases h
        exact List.Forall₂.nil
    | cons a rest ih =>
        rw [List.mapM_cons] at h
        obtain ⟨b, hb, h⟩ := exists_of_bind_ok h
        obtain ⟨others, hothers, h⟩ := exists_of_bind_ok h
        cases h
        exact List.Forall₂.cons hb (ih hothers)
  · intro h
    induction h with
    | nil => rfl
    | cons hb _ ih =>
        rw [List.mapM_cons, hb, ih]
        rfl

/-- A loop succeeds where its items and its results are related as a step relates them. -/
theorem mapM_ok_iff_forall₂ {R : α → β → Prop} (hstep : ∀ a b, f a = .ok b ↔ R a b)
    {found : List β} : l.mapM f = .ok found ↔ List.Forall₂ R l found :=
  mapM_eq_ok_iff.trans
    ⟨fun h => h.imp fun a b => (hstep a b).mp, fun h => h.imp fun a b => (hstep a b).mpr⟩

/-- Every result of a successful loop is that of a step. -/
theorem exists_of_mem_mapM {found : List β} (h : l.mapM f = .ok found) {b : β} (hb : b ∈ found) :
    ∃ a ∈ l, f a = .ok b :=
  exists_of_mem_forall₂ (mapM_eq_ok_iff.mp h) hb

theorem exists_ok_of_mapM {found : List β} (h : l.mapM f = .ok found) {a : α} (ha : a ∈ l) :
    ∃ b, f a = .ok b := by
  obtain ⟨b, _, hb⟩ := exists_of_mem_forall₂_left (mapM_eq_ok_iff.mp h) ha
  exact ⟨b, hb⟩

theorem error_of_mapM {e : ε} (h : l.mapM f = .error e) : ∃ a ∈ l, f a = .error e := by
  induction l with
  | nil => cases h
  | cons a rest ih =>
      rw [List.mapM_cons] at h
      cases ha : f a with
      | error e' =>
          rw [ha] at h
          cases h
          exact ⟨a, List.mem_cons_self, ha⟩
      | ok b =>
          rw [ha] at h
          cases hr : rest.mapM f with
          | error e' =>
              rw [hr] at h
              cases h
              obtain ⟨a', ha', hf⟩ := ih hr
              exact ⟨a', List.mem_cons_of_mem _ ha', hf⟩
          | ok others =>
              rw [hr] at h
              cases h

/-- A loop that fails does so over the wanted items as well, unless one that is not wanted is to
blame. -/
theorem mapM_filter_error (wanted : α → Bool) {e : ε} (h : l.mapM f = .error e) :
    (l.filter wanted).mapM f = .error e ∨ ∃ a ∈ l, wanted a = false ∧ f a = .error e := by
  induction l with
  | nil => cases h
  | cons a rest ih =>
      rw [List.mapM_cons] at h
      cases ha : f a with
      | error e' =>
          rw [ha] at h
          cases h
          cases hwanted : wanted a with
          | false => exact Or.inr ⟨a, List.mem_cons_self, hwanted, ha⟩
          | true =>
              rw [List.filter_cons_of_pos hwanted, List.mapM_cons, ha]
              exact Or.inl rfl
      | ok b =>
          rw [ha] at h
          have hrest : rest.mapM f = .error e := by
            rcases error_of_bind (show (rest.mapM f >>= fun bs => pure (b :: bs)) = .error e from h)
              with hrest | ⟨_, hpure⟩
            · exact hrest
            · cases hpure
          rcases ih hrest with hfiltered | ⟨a', ha', hfails⟩
          · cases hwanted : wanted a with
            | false =>
                rw [List.filter_cons_of_neg (by rw [hwanted]; nofun)]
                exact Or.inl hfiltered
            | true =>
                rw [List.filter_cons_of_pos hwanted, List.mapM_cons, ha, hfiltered]
                exact Or.inl rfl
          · exact Or.inr ⟨a', List.mem_cons_of_mem _ ha', hfails⟩

/-- Loops with the same steps for all items are the same. -/
theorem mapM_congr_option {g g' : α → Option β} (h : ∀ a ∈ l, g a = g' a) :
    l.mapM g = l.mapM g' := by
  induction l with
  | nil => rfl
  | cons a rest ih =>
      rw [List.mapM_cons, List.mapM_cons, h a List.mem_cons_self,
        ih fun a' ha' => h a' (List.mem_cons_of_mem _ ha')]

end Loops

end ApiTypes
