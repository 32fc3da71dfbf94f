import ApiTypes.Decimal.Shortest
import Mathlib.Tactic.Linarith
import Mathlib.Tactic.Ring

/-!
# The numbers that are rounded alike

Below `2 ^ 53` a natural number is kept as it is. From there on it is rounded to the multiples of a
power of two, and those that are rounded to one multiple form an interval around it: it reaches
from half a step below to half a step above, and only a quarter of a step below a power of two,
where the steps get smaller. The ends belong to it if the significand is even. What a shortest
decimal is looked for in is this interval (`Binary64.Holds`), so the natural numbers in it are
exactly those that are rounded alike (`Binary64.Whole.holds_iff`).
-/

set_option autoImplicit false

namespace ApiTypes.Decimal

theorem pow2_eq (n : ℕ) : pow2 n = 2 ^ n := rfl

theorem pow10_eq (n : ℕ) : pow10 n = 10 ^ n := rfl

namespace Binary64

/-! ## Rounded quotients -/

/-- A number is nearest to a quotient, and it is even if another one is as near. -/
structure IsRounded (num den q : ℕ) : Prop where
  /-- It is at most half too great. -/
  lower : 2 * (q * den) ≤ 2 * num + den
  /-- It is at most half too small. -/
  upper : 2 * num ≤ 2 * (q * den) + den
  /-- It is even if it is off by a half. -/
  even : 2 * (q * den) = 2 * num + den ∨ 2 * num = 2 * (q * den) + den → q % 2 = 0

variable {num den q s k m : ℕ} {e : ℤ} {negative : Bool}

theorem isRounded_divRound (num : ℕ) (hden : 0 < den) : IsRounded num den (divRound num den) := by
  have hsplit : num / den * den + num % den = num := Nat.div_add_mod' num den
  have hrest : num % den < den := Nat.mod_lt num hden
  have hnext : (num / den + 1) * den = num / den * den + den := Nat.succ_mul _ _
  unfold divRound
  simp only
  generalize num % den = rest at hsplit hrest
  generalize num / den = low at hsplit hnext
  split
  · constructor <;> omega
  · split
    · split
      · constructor <;> omega
      · constructor <;> omega
    · constructor <;> omega

theorem IsRounded.le {other : ℕ} (hden : 0 < den) (h : IsRounded num den q)
    (hother : IsRounded num den other) : q ≤ other := by
  by_contra hlt
  have hnext : (other + 1) * den ≤ q * den := Nat.mul_le_mul_right den (by omega)
  rw [Nat.succ_mul] at hnext
  -- Both are off by a half, so both are even, and there is none between them.
  have hlower := h.lower
  have hupper := hother.upper
  have heven := h.even (.inl (by omega))
  have hodd := hother.even (.inr (by omega))
  have hgap : (other + 2) * den ≤ q * den := Nat.mul_le_mul_right den (by omega)
  rw [Nat.add_mul] at hgap
  omega

/-- A whole number below a quotient is not above what it is rounded to. -/
theorem IsRounded.le_of_mul_le {low : ℕ} (h : IsRounded num den q) (hden : 0 < den)
    (hlow : low * den ≤ num) : low ≤ q := by
  by_contra hlt
  have hnext : (q + 1) * den ≤ low * den := Nat.mul_le_mul_right den (by omega)
  have hupper := h.upper
  rw [Nat.succ_mul] at hnext
  omega

/-- A whole number above a quotient is not below what it is rounded to. -/
theorem IsRounded.le_of_le_mul {high : ℕ} (h : IsRounded num den q) (hden : 0 < den)
    (hhigh : num ≤ high * den) : q ≤ high := by
  by_contra hlt
  have hnext : (high + 1) * den ≤ q * den := Nat.mul_le_mul_right den (by omega)
  have hlower := h.lower
  rw [Nat.succ_mul] at hnext
  omega

theorem divRound_eq_iff (hden : 0 < den) : divRound num den = q ↔ IsRounded num den q := by
  constructor
  · rintro rfl
    exact isRounded_divRound num hden
  · intro h
    have hround : IsRounded num den (divRound num den) := isRounded_divRound num hden
    exact le_antisymm (hround.le hden h) (h.le hden hround)

/-! ## Rounded natural numbers -/

theorem scaled_natCast (num den t : ℕ) : scaled num den (t : ℤ) = (num, den * 2 ^ t) := by
  simp [scaled, pow2_eq]

theorem scaled_neg_natCast (num den t : ℕ) : scaled num den (-(t : ℤ)) = (num * 2 ^ t, den) := by
  cases t with
  | zero => simp [scaled, pow2_eq]
  | succ t =>
      have hneg : ¬ (0 : ℤ) ≤ -((t + 1 : ℕ) : ℤ) := by omega
      rw [scaled, if_neg hneg, neg_neg, Int.toNat_natCast, pow2_eq]

/-- Before it is corrected, the guess leaves one bit too many. -/
theorem pow2_le_scaled (hk : k ≠ 0) :
    pow2 53 ≤ (scaled k 1 ((k.log2 : ℤ) - 53)).1 / (scaled k 1 ((k.log2 : ℤ) - 53)).2 := by
  have hlog : 2 ^ k.log2 ≤ k := Nat.log2_self_le hk
  rcases le_total 53 k.log2 with h | h
  · obtain ⟨t, ht⟩ := Nat.exists_eq_add_of_le h
    have hexp : (k.log2 : ℤ) - 53 = t := by omega
    rw [hexp, scaled_natCast, Nat.one_mul, Nat.le_div_iff_mul_le (by positivity), pow2_eq,
      ← pow_add, ← ht]
    exact hlog
  · obtain ⟨t, ht⟩ := Nat.exists_eq_add_of_le h
    have hexp : (k.log2 : ℤ) - 53 = -(t : ℤ) := by omega
    rw [hexp, scaled_neg_natCast, Nat.div_one, pow2_eq, ht, pow_add]
    exact Nat.mul_le_mul_right (2 ^ t) hlog

/-- A natural number is scaled by the length of its binary form. -/
theorem exponentOf_one (hk : k ≠ 0) : exponentOf k 1 = (k.log2 : ℤ) - 52 := by
  have hguess : (k.log2 : ℤ) - (Nat.log2 1 : ℤ) - 53 = (k.log2 : ℤ) - 53 := by
    have hone : Nat.log2 1 = 0 := by decide
    rw [hone]
    omega
  unfold exponentOf
  simp only [hguess, if_pos (pow2_le_scaled hk), minExponent]
  omega

/-- A number is rounded once it is scaled, and scaled once more if a bit is carried over. -/
theorem nearest_eq {n d : ℕ} (hnum : num ≠ 0) (h : scaled num den (exponentOf num den) = (n, d)) :
    nearest negative num den
      = if divRound n d = 2 ^ 53 then ⟨negative, 2 ^ 52, exponentOf num den + 1⟩
        else ⟨negative, divRound n d, exponentOf num den⟩ := by
  unfold nearest
  simp only [if_neg hnum, h]
  rfl

theorem log2_eq_of_mem {t : ℕ} (hlow : 2 ^ 52 * 2 ^ t ≤ k) (hhigh : k < 2 ^ 53 * 2 ^ t) :
    k ≠ 0 ∧ k.log2 = t + 52 := by
  have hpos : 0 < 2 ^ 52 * 2 ^ t := by positivity
  have hk : k ≠ 0 := by omega
  refine ⟨hk, (Nat.log2_eq_iff hk).2 ?_⟩
  rw [← pow_add, Nat.add_comm] at hlow hhigh
  exact ⟨hlow, hhigh⟩

/-- From `2 ^ 52` on a natural number is rounded to a multiple of a power of two. -/
theorem nearest_of_mem {t : ℕ} (hlow : 2 ^ 52 * 2 ^ t ≤ k) (hhigh : k < 2 ^ 53 * 2 ^ t) :
    nearest negative k 1
      = if divRound k (2 ^ t) = 2 ^ 53 then ⟨negative, 2 ^ 52, (t : ℤ) + 1⟩
        else ⟨negative, divRound k (2 ^ t), t⟩ := by
  obtain ⟨hk, hlog⟩ := log2_eq_of_mem hlow hhigh
  have hexp : exponentOf k 1 = t := by
    rw [exponentOf_one hk, hlog]
    omega
  have hscaled : scaled k 1 (exponentOf k 1) = (k, 2 ^ t) := by
    rw [hexp, scaled_natCast, Nat.one_mul]
  rw [nearest_eq hk hscaled, hexp]

/-- Below `2 ^ 53` a natural number is kept, with as many zeros as its significand has place
for. -/
theorem nearest_of_lt (negative : Bool) (hk : k ≠ 0) (h : k < 2 ^ 53) :
    ∃ t : ℕ, 2 ^ 52 ≤ k * 2 ^ t ∧ k * 2 ^ t < 2 ^ 53
      ∧ nearest negative k 1 = ⟨negative, k * 2 ^ t, -(t : ℤ)⟩ := by
  obtain ⟨hlow, hhigh⟩ := (Nat.log2_eq_iff hk).1 rfl
  have hlog : k.log2 < 53 := (Nat.log2_lt hk).2 h
  obtain ⟨t, ht⟩ := Nat.exists_eq_add_of_le (Nat.le_of_lt_succ hlog)
  have hexp : exponentOf k 1 = -(t : ℤ) := by
    rw [exponentOf_one hk]
    omega
  have hscaled : scaled k 1 (exponentOf k 1) = (k * 2 ^ t, 1) := by
    rw [hexp, scaled_neg_natCast]
  have hround : divRound (k * 2 ^ t) 1 = k * 2 ^ t := by
    rw [divRound_eq_iff Nat.one_pos]
    constructor <;> omega
  have hge : 2 ^ 52 ≤ k * 2 ^ t :=
    calc 2 ^ 52 = 2 ^ k.log2 * 2 ^ t := by rw [← pow_add, ← ht]
      _ ≤ k * 2 ^ t := Nat.mul_le_mul_right _ hlow
  have hlt : k * 2 ^ t < 2 ^ 53 :=
    calc k * 2 ^ t < 2 ^ (k.log2 + 1) * 2 ^ t := Nat.mul_lt_mul_of_pos_right hhigh (by positivity)
      _ = 2 ^ 53 := by rw [← pow_add, Nat.add_right_comm, ← ht]
  refine ⟨t, hge, hlt, ?_⟩
  rw [nearest_eq hk hscaled, hround, if_neg hlt.ne, hexp]

/-- From there on its last bits are rounded away. -/
theorem nearest_of_le (negative : Bool) (h : 2 ^ 53 ≤ k) :
    ∃ s t : ℕ, 2 ^ 52 ≤ s ∧ s < 2 ^ 53 ∧ nearest negative k 1 = ⟨negative, s, (t : ℤ) + 1⟩ := by
  have hk : k ≠ 0 := by omega
  obtain ⟨r, hr⟩ := Nat.exists_eq_add_of_le ((Nat.le_log2 hk).2 h)
  obtain ⟨hlow, hhigh⟩ := (Nat.log2_eq_iff hk).1 (hr.trans (by omega : 53 + r = 52 + (r + 1)))
  rw [pow_add] at hlow
  rw [Nat.add_right_comm, pow_add] at hhigh
  have hpos : 0 < 2 ^ (r + 1) := by positivity
  have hround := isRounded_divRound k hpos
  have hge := hround.le_of_mul_le hpos hlow
  have hle := hround.le_of_le_mul hpos hhigh.le
  rw [nearest_of_mem hlow hhigh]
  split
  · exact ⟨2 ^ 52, r + 1, by norm_num, by norm_num, rfl⟩
  · rename_i hcarried
    exact ⟨_, r, hge, lt_of_le_of_ne hle hcarried, rfl⟩

/-! ## Rounding intervals -/

/-- A natural number lies in the rounding interval of a binary number. -/
def Holds (x : Binary64) (k : ℕ) : Prop :=
  let factor := pow2 (x.exponent - 2).toNat
  let unit := pow2 (-(x.exponent - 2)).toNat
  if x.significand % 2 = 0 then
    x.quarters.1 * factor ≤ k * unit ∧ k * unit ≤ x.quarters.2.2 * factor
  else x.quarters.1 * factor < k * unit ∧ k * unit < x.quarters.2.2 * factor

theorem exists_quarters (x : Binary64) :
    ∃ d, 1 ≤ d ∧ d ≤ 2
      ∧ x.quarters = (4 * x.significand - d, 4 * x.significand, 4 * x.significand + 2) := by
  unfold quarters
  simp only
  split
  · exact ⟨1, by omega, by omega, rfl⟩
  · exact ⟨2, by omega, by omega, rfl⟩

theorem mul_two_pow_succ (n t : ℕ) : n * 2 ^ (t + 1) = 2 * (n * 2 ^ t) := by
  rw [pow_succ', Nat.mul_left_comm]

/-- A significand of the format is a step away from the next power of two. -/
theorem add_pow_le {s : ℕ} (hs : s < 2 ^ 53) (t : ℕ) : s * 2 ^ t + 2 ^ t ≤ 2 ^ 53 * 2 ^ t := by
  rw [← Nat.succ_mul]
  exact Nat.mul_le_mul_right _ hs

/-- How many quarters of a step the interval reaches below a number. -/
def below (s : ℕ) : ℕ := if s = 2 ^ 52 then 1 else 2

theorem below_le (s : ℕ) : below s ≤ 2 := by
  unfold below
  split <;> omega

/-- Where numbers are steps of `2 * 2 ^ t` apart, the interval in halves of a step. -/
theorem holds_step_iff {t : ℕ} (hs : 2 ^ 52 ≤ s) :
    Holds ⟨negative, s, (t : ℤ) + 1⟩ k
      ↔ if s % 2 = 0 then
          4 * (s * 2 ^ t) ≤ 2 * k + below s * 2 ^ t ∧ 2 * k ≤ 4 * (s * 2 ^ t) + 2 * 2 ^ t
        else
          4 * (s * 2 ^ t) < 2 * k + below s * 2 ^ t ∧ 2 * k < 4 * (s * 2 ^ t) + 2 * 2 ^ t := by
  have hquarters : quarters ⟨negative, s, (t : ℤ) + 1⟩ = (4 * s - below s, 4 * s, 4 * s + 2) := by
    have hexp : minExponent < (t : ℤ) + 1 := by
      rw [minExponent]
      omega
    simp [quarters, below, hexp, pow2_eq]
  have hbelow : below s ≤ 4 * s := by
    have := below_le s
    omega
  cases t with
  | zero =>
      have hfactor : (((0 : ℕ) : ℤ) + 1 - 2).toNat = 0 := rfl
      have hunit : (-(((0 : ℕ) : ℤ) + 1 - 2)).toNat = 1 := rfl
      simp only [Holds, hquarters, hfactor, hunit, pow2_eq, pow_zero, pow_one]
      split <;> omega
  | succ t =>
      have hfactor : (((t + 1 : ℕ) : ℤ) + 1 - 2).toNat = t := by omega
      have hunit : (-(((t + 1 : ℕ) : ℤ) + 1 - 2)).toNat = 0 := by omega
      have hpow : 2 ^ (t + 1) = 2 * 2 ^ t := pow_succ' 2 t
      have hle : below s * 2 ^ t ≤ 4 * s * 2 ^ t := Nat.mul_le_mul_right _ hbelow
      have hlow : (4 * s - below s) * 2 ^ t = 4 * (s * 2 ^ t) - below s * 2 ^ t := by
        rw [Nat.sub_mul, Nat.mul_assoc]
      have hhigh : (4 * s + 2) * 2 ^ t = 4 * (s * 2 ^ t) + 2 * 2 ^ t := by ring
      rw [Nat.mul_assoc] at hle
      simp only [Holds, hquarters, hfactor, hunit, pow2_eq, pow_zero, Nat.mul_one, hlow, hhigh]
      rw [mul_two_pow_succ s, mul_two_pow_succ (below s), hpow]
      split <;> omega

/-- What is rounded to a number lies in its interval. -/
theorem holds_of_nearest {t : ℕ} (hs : 2 ^ 52 ≤ s)
    (h : nearest negative k 1 = ⟨negative, s, (t : ℤ) + 1⟩) :
    Holds ⟨negative, s, (t : ℤ) + 1⟩ k := by
  have hk : k ≠ 0 := by
    rintro rfl
    have hzero : (0 : ℕ) = s := congrArg significand h
    omega
  have hlong : 52 ≤ k.log2 := by
    by_contra hshort
    have hlt : k < 2 ^ 53 := (Nat.log2_lt hk).1 (by omega)
    obtain ⟨r, -, -, hr⟩ := nearest_of_lt negative hk hlt
    have hexp : -(r : ℤ) = t + 1 := congrArg exponent (hr.symm.trans h)
    omega
  obtain ⟨r, hr⟩ := Nat.exists_eq_add_of_le hlong
  obtain ⟨hlow, hhigh⟩ := (Nat.log2_eq_iff hk).1 hr
  rw [pow_add] at hlow
  rw [Nat.add_right_comm, pow_add] at hhigh
  rw [nearest_of_mem hlow hhigh] at h
  rw [holds_step_iff hs]
  split at h
  · -- A bit was carried over: the step below was half as long.
    rename_i hcarried
    obtain ⟨rfl, hexp⟩ : 2 ^ 52 = s ∧ (r : ℤ) + 1 = t + 1 :=
      ⟨congrArg significand h, congrArg exponent h⟩
    obtain rfl : r = t := by omega
    have hround := (divRound_eq_iff (by positivity)).1 hcarried
    have hlower := hround.lower
    rw [if_pos (by norm_num), below, if_pos rfl]
    omega
  · obtain ⟨hq, hexp⟩ : divRound k (2 ^ r) = s ∧ (r : ℤ) = t + 1 :=
      ⟨congrArg significand h, congrArg exponent h⟩
    obtain rfl : r = t + 1 := by omega
    have hround := (divRound_eq_iff (by positivity)).1 hq
    have hdouble := mul_two_pow_succ s t
    have hpow : 2 ^ (t + 1) = 2 * 2 ^ t := pow_succ' 2 t
    have hlower := hround.lower
    have hupper := hround.upper
    have heven := hround.even
    rw [hdouble, hpow] at hlower hupper heven
    rw [hpow] at hlow
    by_cases hleast : s = 2 ^ 52
    · subst hleast
      rw [if_pos (by norm_num), below, if_pos rfl]
      omega
    · rw [below, if_neg hleast]
      split <;> omega

/-- What lies in the interval of a number is rounded to it. -/
theorem nearest_of_holds {t : ℕ} (hs : 2 ^ 52 ≤ s) (hlt : s < 2 ^ 53)
    (h : Holds ⟨negative, s, (t : ℤ) + 1⟩ k) :
    nearest negative k 1 = ⟨negative, s, (t : ℤ) + 1⟩ := by
  rw [holds_step_iff hs] at h
  have hpos : 0 < 2 ^ t := by positivity
  have hdouble := mul_two_pow_succ s t
  have hpow : 2 ^ (t + 1) = 2 * 2 ^ t := pow_succ' 2 t
  have hleast : 2 ^ 52 * 2 ^ t ≤ s * 2 ^ t := Nat.mul_le_mul_right _ hs
  have hmost := add_pow_le hlt t
  have hbelow : below s * 2 ^ t ≤ 2 * 2 ^ t := Nat.mul_le_mul_right _ (below_le s)
  by_cases hk : 2 ^ 52 * 2 ^ (t + 1) ≤ k
  · have hround : divRound k (2 ^ (t + 1)) = s := by
      rw [divRound_eq_iff (by positivity)]
      split at h
      · constructor <;> rw [hdouble, hpow] <;> omega
      · constructor <;> rw [hdouble, hpow] <;> omega
    have hhigh : k < 2 ^ 53 * 2 ^ (t + 1) := by
      rw [hpow]
      split at h <;> omega
    rw [nearest_of_mem hk hhigh, hround, if_neg hlt.ne]
    rfl
  · -- Only below a power of two the interval reaches to where steps are shorter.
    obtain rfl : s = 2 ^ 52 := by
      by_contra hne
      have hnext : (2 ^ 52 + 1) * 2 ^ t ≤ s * 2 ^ t := Nat.mul_le_mul_right _ (by omega)
      rw [hpow] at hk
      split at h <;> omega
    rw [hpow] at hk
    rw [if_pos (by norm_num), below, if_pos rfl] at h
    have hround : divRound k (2 ^ t) = 2 ^ 53 := by
      rw [divRound_eq_iff hpos]
      constructor <;> omega
    rw [nearest_of_mem (t := t) (by omega) (by omega), if_pos hround]

/-! ## Whole numbers -/

/-- A binary number is a natural number, apart from its sign: it has bits to spare behind the
point, or it is a multiple of a greater step. -/
inductive Whole : Binary64 → ℕ → Prop
  /-- The last bits of the significand are zeros that stand behind the point. -/
  | short {negative : Bool} {v t : ℕ} (hlow : 2 ^ 52 ≤ v * 2 ^ t) (hhigh : v * 2 ^ t < 2 ^ 53) :
      Whole ⟨negative, v * 2 ^ t, -(t : ℤ)⟩ v
  /-- It is a multiple of a power of two that is not one. -/
  | long {negative : Bool} {s t : ℕ} (hlow : 2 ^ 52 ≤ s) (hhigh : s < 2 ^ 53) :
      Whole ⟨negative, s, (t : ℤ) + 1⟩ (s * 2 ^ (t + 1))

variable {x : Binary64} {v j : ℕ}

/-- What is kept is a whole number. -/
theorem whole_nearest_of_lt (hk : k ≠ 0) (h : k < 2 ^ 53) : Whole (nearest negative k 1) k := by
  obtain ⟨t, hlow, hhigh, hnearest⟩ := nearest_of_lt negative hk h
  rw [hnearest]
  exact .short hlow hhigh

/-- Rounding a natural number gives a whole number. -/
theorem exists_whole_nearest (hk : k ≠ 0) : ∃ v, Whole (nearest negative k 1) v := by
  rcases Nat.lt_or_ge k (2 ^ 53) with hlt | hge
  · exact ⟨k, whole_nearest_of_lt hk hlt⟩
  · obtain ⟨s, t, hlow, hhigh, hnearest⟩ := nearest_of_le negative hge
    rw [hnearest]
    exact ⟨_, .long hlow hhigh⟩

theorem Whole.pos (h : Whole x v) : 0 < v := by
  rw [Nat.pos_iff_ne_zero]
  cases h with
  | short hlow hhigh =>
      rintro rfl
      omega
  | long hlow hhigh =>
      apply Nat.mul_ne_zero
      · omega
      · positivity

theorem Whole.significand_ne_zero (h : Whole x v) : x.significand ≠ 0 := by
  cases h with
  | short hlow hhigh => exact (Nat.lt_of_lt_of_le (by norm_num) hlow).ne'
  | long hlow hhigh => exact (Nat.lt_of_lt_of_le (by norm_num) hlow).ne'

/-! ## The interval of a whole number -/

theorem Holds.between {i : ℕ} (hj : Holds x j) (hk : Holds x k) (hji : j ≤ i) (hik : i ≤ k) :
    Holds x i := by
  have hlow := Nat.mul_le_mul_right (pow2 (-(x.exponent - 2)).toNat) hji
  have hhigh := Nat.mul_le_mul_right (pow2 (-(x.exponent - 2)).toNat) hik
  unfold Holds at hj hk ⊢
  simp only at hj hk ⊢
  by_cases heven : x.significand % 2 = 0
  · rw [if_pos heven] at hj hk ⊢
    exact ⟨hj.1.trans hlow, hhigh.trans hk.2⟩
  · rw [if_neg heven] at hj hk ⊢
    exact ⟨hj.1.trans_le hlow, hhigh.trans_lt hk.2⟩

/-- No natural number but itself lies in the interval of a short one. -/
theorem holds_short_iff {t : ℕ} (hlow : 2 ^ 52 ≤ v * 2 ^ t) :
    Holds ⟨negative, v * 2 ^ t, -(t : ℤ)⟩ k ↔ k = v := by
  have hfactor : (-(t : ℤ) - 2).toNat = 0 := by omega
  have hunit : (-(-(t : ℤ) - 2)).toNat = t + 2 := by omega
  obtain ⟨d, hd, hle, hquarters⟩ := exists_quarters ⟨negative, v * 2 ^ t, -(t : ℤ)⟩
  have hscale (n : ℕ) : n * 2 ^ (t + 2) = 4 * (n * 2 ^ t) := by ring
  have hpos : 0 < 2 ^ t := by positivity
  -- Another number is at least a whole step away, which is four quarters.
  have hmore (h : v < k) : v * 2 ^ t + 2 ^ t ≤ k * 2 ^ t := by
    rw [← Nat.succ_mul]
    exact Nat.mul_le_mul_right _ h
  have hless (h : k < v) : k * 2 ^ t + 2 ^ t ≤ v * 2 ^ t := by
    rw [← Nat.succ_mul]
    exact Nat.mul_le_mul_right _ h
  unfold Holds
  simp only [hfactor, hunit, hquarters, pow2_eq, hscale, pow_zero, Nat.mul_one]
  constructor
  · intro h
    rcases Nat.lt_trichotomy k v with hlt | heq | hgt
    · have := hless hlt
      split at h <;> omega
    · exact heq
    · have := hmore hgt
      split at h <;> omega
  · rintro rfl
    split <;> omega

/-- There is one number of places behind the point with which a significand has 53 bits. -/
theorem le_of_scaled {t r : ℕ} (hlow : 2 ^ 52 ≤ v * 2 ^ t) (hhigh : v * 2 ^ r < 2 ^ 53) :
    r ≤ t := by
  by_contra hlt
  have hpow : 2 ^ (t + 1) ≤ 2 ^ r := Nat.pow_le_pow_right (by norm_num) (by omega)
  have hmul := Nat.mul_le_mul_left v hpow
  rw [pow_succ, ← Nat.mul_assoc] at hmul
  omega

theorem nearest_eq_short_iff {t : ℕ} (hlow : 2 ^ 52 ≤ v * 2 ^ t) (hhigh : v * 2 ^ t < 2 ^ 53) :
    nearest negative k 1 = ⟨negative, v * 2 ^ t, -(t : ℤ)⟩ ↔ k = v := by
  have hpos : 0 < 2 ^ t := by positivity
  constructor
  · intro h
    have hk : k ≠ 0 := by
      rintro rfl
      have hzero : 0 = v * 2 ^ t := congrArg significand h
      omega
    rcases Nat.lt_or_ge k (2 ^ 53) with hlt | hge
    · obtain ⟨r, -, -, hnearest⟩ := nearest_of_lt negative hk hlt
      obtain ⟨hsig, hexp⟩ : k * 2 ^ r = v * 2 ^ t ∧ -(r : ℤ) = -(t : ℤ) :=
        ⟨congrArg significand (hnearest.symm.trans h), congrArg exponent (hnearest.symm.trans h)⟩
      obtain rfl : r = t := by omega
      exact Nat.eq_of_mul_eq_mul_right hpos hsig
    · obtain ⟨s, r, -, -, hnearest⟩ := nearest_of_le negative hge
      have hexp : (r : ℤ) + 1 = -(t : ℤ) := congrArg exponent (hnearest.symm.trans h)
      omega
  · rintro rfl
    have hk : k ≠ 0 := by
      rintro rfl
      omega
    have hlt : k < 2 ^ 53 := (Nat.le_mul_of_pos_right k hpos).trans_lt hhigh
    obtain ⟨r, hge, hless, hnearest⟩ := nearest_of_lt negative hk hlt
    obtain rfl : r = t := le_antisymm (le_of_scaled hlow hless) (le_of_scaled hge hhigh)
    exact hnearest

/-- Below `2 ^ 53` no two natural numbers are rounded alike. -/
theorem nearest_eq_nearest_iff (hm : m ≠ 0) (hlt : m < 2 ^ 53) :
    nearest negative k 1 = nearest negative m 1 ↔ k = m := by
  obtain ⟨t, hlow, hhigh, hnearest⟩ := nearest_of_lt negative hm hlt
  rw [hnearest, nearest_eq_short_iff hlow hhigh]

/-- **The natural numbers in the interval of a whole number are those that are rounded to it.** -/
theorem Whole.holds_iff (h : Whole x v) : Holds x k ↔ nearest x.negative k 1 = x := by
  cases h with
  | short hlow hhigh => rw [holds_short_iff hlow, nearest_eq_short_iff hlow hhigh]
  | long hlow hhigh =>
      constructor
      · exact nearest_of_holds hlow hhigh
      · exact holds_of_nearest hlow

/-- A whole number lies in its own interval. -/
theorem Whole.holds (h : Whole x v) : Holds x v := by
  cases h with
  | short hlow hhigh => exact (holds_short_iff hlow).2 rfl
  | @long negative s t hlow hhigh =>
      have hdouble := mul_two_pow_succ s t
      have hpos : 0 < 2 ^ t := by positivity
      rw [holds_step_iff hlow, hdouble, below]
      split <;> split <;> omega

/-- The interval is small: its numbers are apart by less than what is left of the number when 52
bits are taken away. -/
theorem Whole.sub_le (h : Whole x v) (hj : Holds x j) (hk : Holds x k) :
    (k - j) * 2 ^ 52 ≤ v := by
  cases h with
  | short hlow hhigh =>
      rw [(holds_short_iff hlow).1 hj, (holds_short_iff hlow).1 hk]
      omega
  | @long negative s t hlow hhigh =>
      have hdouble := mul_two_pow_succ s t
      have hbelow : below s * 2 ^ t ≤ 2 * 2 ^ t := Nat.mul_le_mul_right _ (below_le s)
      have hleast : 2 ^ 52 * 2 ^ t ≤ s * 2 ^ t := Nat.mul_le_mul_right _ hlow
      rw [holds_step_iff hlow] at hj hk
      rw [hdouble]
      split at hj
      · rename_i heven
        rw [if_pos heven] at hk
        omega
      · rename_i hodd
        rw [if_neg hodd] at hk
        omega

/-- The interval holds a multiple of each number that is sixteen digits shorter. -/
theorem Whole.exists_multiple {g : ℕ} (h : Whole x v) (hg : 0 < g) (hsmall : 10 ^ 16 * g ≤ v) :
    ∃ c, Holds x (c * g) := by
  cases h with
  | @short negative v t hlow hhigh =>
      have hpos : 0 < 2 ^ t := by positivity
      have hle : v ≤ v * 2 ^ t := Nat.le_mul_of_pos_right v hpos
      omega
  | @long negative s t hlow hhigh =>
      have hround := isRounded_divRound (s * 2 ^ (t + 1)) hg
      generalize divRound (s * 2 ^ (t + 1)) g = c at hround
      refine ⟨c, ?_⟩
      have hlower := hround.lower
      have hupper := hround.upper
      have hdouble := mul_two_pow_succ s t
      have hmost := add_pow_le hhigh t
      rw [hdouble] at hlower hupper hsmall
      rw [holds_step_iff hlow]
      by_cases hleast : s = 2 ^ 52
      · subst hleast
        rw [if_pos (by norm_num), below, if_pos rfl]
        omega
      · rw [below, if_neg hleast]
        split <;> omega

end Binary64

end ApiTypes.Decimal
