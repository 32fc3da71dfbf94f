import ApiTypes.Proofs.Decimal.Nearest
import Mathlib.Algebra.Order.Field.Rat
import Mathlib.Data.Rat.Cast.Order

/-!
# Binary numbers in their canonical form

A number of the format has several forms as a significand and a power of two. Rounding gives the
one with 53 bits, or with the least exponent (`Binary64.canonical_nearest`). The exponent is guessed
from the lengths of the two numbers of a quotient, which tell it up to a factor of four
(`Binary64.ratio_bounds`), and corrected by one.
-/

set_option autoImplicit false

namespace ApiTypes.Decimal

namespace Binary64

variable {num den : ℕ}

/-! ## Scaling -/

/-- A quotient is scaled by a power of two. -/
theorem scaled_ratio (num : ℕ) (hden : 0 < den) (e : ℤ) :
    0 < (scaled num den e).2
      ∧ ((scaled num den e).1 : ℚ) / (scaled num den e).2 = num / den / (2 : ℚ) ^ e := by
  rcases le_total 0 e with hnonneg | hneg
  · obtain ⟨t, rfl⟩ := Int.eq_ofNat_of_zero_le hnonneg
    rw [scaled_natCast, zpow_natCast]
    refine ⟨by positivity, ?_⟩
    push_cast
    rw [div_div]
  · obtain ⟨t, ht⟩ := Int.eq_ofNat_of_zero_le (by omega : 0 ≤ -e)
    obtain rfl : e = -(t : ℤ) := by omega
    rw [scaled_neg_natCast, zpow_neg, zpow_natCast]
    refine ⟨hden, ?_⟩
    push_cast
    rw [div_inv_eq_mul, div_mul_eq_mul_div]

/-- The lengths of two numbers tell their quotient up to a factor of four. -/
theorem ratio_bounds (hnum : num ≠ 0) (hden : 0 < den) :
    (2 : ℚ) ^ ((num.log2 : ℤ) - den.log2 - 1) ≤ num / den
      ∧ (num : ℚ) / den < (2 : ℚ) ^ ((num.log2 : ℤ) - den.log2 + 1) := by
  obtain ⟨hnumLow, hnumHigh⟩ := (Nat.log2_eq_iff hnum).1 rfl
  obtain ⟨hdenLow, hdenHigh⟩ := (Nat.log2_eq_iff hden.ne').1 rfl
  have hdenPos : (0 : ℚ) < den := by exact_mod_cast hden
  have hlow : (2 : ℚ) ^ ((num.log2 : ℤ) - den.log2 - 1) = 2 ^ num.log2 / 2 ^ (den.log2 + 1) := by
    rw [sub_sub, zpow_sub₀ two_ne_zero, zpow_natCast]
    norm_cast
  have hhigh : (2 : ℚ) ^ ((num.log2 : ℤ) - den.log2 + 1) = 2 ^ (num.log2 + 1) / 2 ^ den.log2 := by
    rw [sub_add_eq_add_sub, zpow_sub₀ two_ne_zero, zpow_natCast]
    norm_cast
  constructor
  · rw [hlow, div_le_div_iff₀ (by positivity) hdenPos]
    have hprod : 2 ^ num.log2 * den ≤ num * 2 ^ (den.log2 + 1) := Nat.mul_le_mul hnumLow hdenHigh.le
    exact_mod_cast hprod
  · rw [hhigh, div_lt_div_iff₀ hdenPos (by positivity)]
    have hprod : num * 2 ^ den.log2 < 2 ^ (num.log2 + 1) * den :=
      Nat.mul_lt_mul_of_lt_of_le hnumHigh hdenLow hden
    exact_mod_cast hprod

/-- The guess of an exponent is corrected by one if it leaves a bit too many. -/
theorem exists_exponentOf (hnum : num ≠ 0) (hden : 0 < den) :
    ∃ e, exponentOf num den = max minExponent e ∧ (num : ℚ) / den / (2 : ℚ) ^ e < 2 ^ 53
      ∧ (2 : ℚ) ^ 52 ≤ (num : ℚ) / den / (2 : ℚ) ^ e := by
  obtain ⟨hlow, hhigh⟩ := ratio_bounds hnum hden
  obtain ⟨hpos, hscaled⟩ := scaled_ratio num hden ((num.log2 : ℤ) - den.log2 - 53)
  have hposQ : (0 : ℚ) < (scaled num den ((num.log2 : ℤ) - den.log2 - 53)).2 := by
    exact_mod_cast hpos
  unfold exponentOf
  simp only
  generalize (num.log2 : ℤ) - den.log2 = lengths at hlow hhigh hscaled hpos hposQ ⊢
  generalize (num : ℚ) / den = r at hlow hhigh hscaled ⊢
  have htwo : (2 : ℚ) ≠ 0 := two_ne_zero
  split
  · rename_i hmore
    rw [pow2_eq, Nat.le_div_iff_mul_le hpos] at hmore
    refine ⟨_, rfl, ?_, ?_⟩
    · have hexp : ((53 : ℕ) : ℤ) + (lengths - 53 + 1) = lengths + 1 := by push_cast; ring
      rw [div_lt_iff₀ (zpow_pos two_pos _), ← zpow_natCast, ← zpow_add₀ htwo, hexp]
      exact hhigh
    · have hratio : (2 : ℚ) ^ 53 ≤ r / (2 : ℚ) ^ (lengths - 53) := by
        rw [← hscaled, le_div_iff₀ hposQ]
        exact_mod_cast hmore
      rw [zpow_add₀ htwo, zpow_one, ← div_div, le_div_iff₀ two_pos]
      linarith
  · rename_i hfew
    rw [pow2_eq, not_le, Nat.div_lt_iff_lt_mul hpos] at hfew
    refine ⟨_, rfl, ?_, ?_⟩
    · rw [← hscaled, div_lt_iff₀ hposQ]
      exact_mod_cast hfew
    · have hexp : ((52 : ℕ) : ℤ) + (lengths - 53) = lengths - 1 := by push_cast; ring
      rw [le_div_iff₀ (zpow_pos two_pos _), ← zpow_natCast, ← zpow_add₀ htwo, hexp]
      exact hlow

/-- Scaled by its exponent, a quotient has 53 bits before the point, or fewer with the least
exponent. -/
theorem exponentOf_bounds (hnum : num ≠ 0) (hden : 0 < den) :
    minExponent ≤ exponentOf num den
      ∧ (num : ℚ) / den / (2 : ℚ) ^ exponentOf num den < 2 ^ 53
      ∧ (minExponent < exponentOf num den →
        (2 : ℚ) ^ 52 ≤ (num : ℚ) / den / (2 : ℚ) ^ exponentOf num den) := by
  obtain ⟨e, hexp, hlt, hge⟩ := exists_exponentOf hnum hden
  have hmax : e ≤ exponentOf num den := hexp ▸ le_max_right _ _
  refine ⟨hexp ▸ le_max_left _ _, ?_, ?_⟩
  · have hpow : (2 : ℚ) ^ e ≤ (2 : ℚ) ^ exponentOf num den := zpow_le_zpow_right₀ one_le_two hmax
    have hratio : (0 : ℚ) ≤ num / den := div_nonneg (Nat.cast_nonneg _) (Nat.cast_nonneg _)
    exact (div_le_div_of_nonneg_left hratio (zpow_pos two_pos e) hpow).trans_lt hlt
  · intro hmore
    have heq : exponentOf num den = e := by
      rw [hexp] at hmore ⊢
      exact max_eq_right_of_lt ((lt_max_iff.1 hmore).resolve_left (lt_irrefl _))
    rwa [heq]

/-! ## Canonical numbers -/

/-- A binary number is in the form of the format: it has 53 bits, or the least exponent. -/
structure Canonical (x : Binary64) : Prop where
  /-- It has at most 53 bits. -/
  lt : x.significand < 2 ^ 53
  /-- Its exponent is not below the least one. -/
  le : minExponent ≤ x.exponent
  /-- It has fewer bits only with the least exponent. -/
  full : minExponent < x.exponent → 2 ^ 52 ≤ x.significand

/-- **Rounding makes canonical numbers.** -/
theorem canonical_nearest (negative : Bool) (num : ℕ) (hden : 0 < den) :
    Canonical (nearest negative num den) := by
  by_cases hnum : num = 0
  · subst hnum
    exact ⟨by norm_num [nearest], le_rfl, fun h => absurd h (lt_irrefl _)⟩
  · obtain ⟨hmin, hlt, hge⟩ := exponentOf_bounds hnum hden
    obtain ⟨hpos, hratio⟩ := scaled_ratio num hden (exponentOf num den)
    rw [← hratio] at hlt hge
    have hposQ : (0 : ℚ) < (scaled num den (exponentOf num den)).2 := by exact_mod_cast hpos
    have hround := isRounded_divRound (scaled num den (exponentOf num den)).1 hpos
    rw [div_lt_iff₀ hposQ] at hlt
    have hle := hround.le_of_le_mul hpos (by exact_mod_cast hlt.le)
    rw [nearest_eq hnum rfl]
    split
    · exact ⟨by norm_num, by simp only; omega, fun _ => le_rfl⟩
    · rename_i hcarried
      refine ⟨lt_of_le_of_ne hle hcarried, hmin, ?_⟩
      intro hmore
      have hfull := hge hmore
      rw [le_div_iff₀ hposQ] at hfull
      exact hround.le_of_mul_le hpos (by exact_mod_cast hfull)

end Binary64
end ApiTypes.Decimal
