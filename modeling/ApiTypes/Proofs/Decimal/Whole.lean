import ApiTypes.Decimal.Layout
import ApiTypes.Proofs.Decimal.Nearest

/-!
# Shortest decimals of whole numbers

A shortest decimal is looked for on the grids of powers of ten, from the greatest power that the
number reaches down to one that leaves seventeen digits. On each grid the two neighbours of the
number are tried, so what is found is the nearest multiple in the rounding interval, and nothing is
found only if there is none (`Binary64.Whole.holds_of_onGrid?`,
`Binary64.Whole.not_holds_of_onGrid?`). For a whole number the search ends on a grid of whole
numbers: one grid that is tried is fine enough for the interval, which is as wide as the last of
53 bits (`Binary64.Whole.exists_on_grid`). What the search finds ends in as many zeros as any number
of the interval (`Binary64.Whole.shortestIn`).
-/

set_option autoImplicit false

universe u

namespace ApiTypes.Decimal

/-! ## Digits -/

/-- The zeros after the digits of a number. -/
theorem digitsOf_mul_pow {n : ℕ} (hn : n ≠ 0) (p : ℕ) :
    digitsOf (n * 10 ^ p) = digitsOf n ++ zeros p := by
  induction p with
  | zero => simp [zeros]
  | succ p ih =>
      have hpos : 0 < n * 10 ^ p := by positivity
      have hnext : n * 10 ^ (p + 1) = 10 * (n * 10 ^ p) + 0 := by ring
      have happend := Nat.toDigits_append_toDigits (b := 10) (d := 0) (by decide) hpos (by decide)
      rw [hnext, digitsOf, ← happend, ← digitsOf, ih, Nat.toDigits_zero, zeros, zeros,
        List.replicate_succ', List.append_assoc]

/-- How many digits a number has. -/
theorem pow_le_and_lt_of_length {n : ℕ} (hn : n ≠ 0) :
    10 ^ ((digitsOf n).length - 1) ≤ n ∧ n < 10 ^ (digitsOf n).length := by
  have hpos : 0 < (digitsOf n).length := Nat.length_toDigits_pos
  constructor
  · by_contra hlt
    rcases Nat.eq_zero_or_pos ((digitsOf n).length - 1) with hzero | hlong
    · rw [hzero] at hlt
      omega
    · have hiff := Nat.length_toDigits_le_iff (b := 10) (n := n) (by decide) hlong
      have hless := hiff.2 (Nat.lt_of_not_le hlt)
      rw [← digitsOf] at hless
      omega
  · exact (Nat.length_toDigits_le_iff (by decide) hpos).1 le_rfl

/-- Moving zeros into the exponent changes neither the number nor the sign of the exponent. -/
theorem Digits.trimmed_value (budget : ℕ) (d : Digits) (h : 0 ≤ d.exponent) :
    0 ≤ (d.trimmed budget).exponent
      ∧ (d.trimmed budget).digits * 10 ^ (d.trimmed budget).exponent.toNat
        = d.digits * 10 ^ d.exponent.toNat := by
  induction budget generalizing d with
  | zero => exact ⟨h, rfl⟩
  | succ budget ih =>
      unfold Digits.trimmed
      split
      · rename_i hzero
        obtain ⟨hsign, hvalue⟩ := ih ⟨d.digits / 10, d.exponent + 1⟩ (by simp only; omega)
        refine ⟨hsign, hvalue.trans ?_⟩
        have hexp : (d.exponent + 1).toNat = d.exponent.toNat + 1 := by omega
        have hdigits : d.digits / 10 * 10 = d.digits :=
          Nat.div_mul_cancel (Nat.dvd_of_mod_eq_zero hzero.2)
        simp only [hexp, pow_succ']
        rw [← Nat.mul_assoc, hdigits]
      · exact ⟨h, rfl⟩

/-- What is found first in a range was not found before. -/
theorem exists_of_findSome?_range {α : Type u} {f : ℕ → Option α} {n : ℕ} {a : α}
    (h : (List.range n).findSome? f = some a) :
    ∃ m < n, f m = some a ∧ ∀ i < m, f i = none := by
  induction n with
  | zero => cases h
  | succ n ih =>
      rw [List.range_succ, List.findSome?_append] at h
      cases hbefore : (List.range n).findSome? f with
      | some b =>
          rw [hbefore, Option.some_or] at h
          cases h
          obtain ⟨m, hm, hfound⟩ := ih hbefore
          exact ⟨m, hm.trans n.lt_succ_self, hfound⟩
      | none =>
          rw [hbefore, Option.none_or] at h
          rw [List.findSome?_eq_none_iff] at hbefore
          refine ⟨n, n.lt_succ_self, ?_, fun i hi => hbefore i (List.mem_range.2 hi)⟩
          simpa using h

namespace Binary64

variable {x : Binary64} {v k j : ℕ}

/-! ## Grids -/

/-- Whether a multiple of a step lies in the interval, in the units of the grid. -/
def holdsOnGrid (x : Binary64) (factor unit c : ℕ) : Bool :=
  if x.significand % 2 = 0 then
    x.quarters.1 * factor ≤ c * unit && c * unit ≤ x.quarters.2.2 * factor
  else x.quarters.1 * factor < c * unit && c * unit < x.quarters.2.2 * factor

/-- Whether the upper one of two neighbours is taken. -/
def takesUpper (tie : Tie) (lower below above : ℕ) : Bool :=
  if below = above then
    match tie with
    | .away => true
    | .toEven => lower % 2 = 1
  else decide (above < below)

/-- Which of the two neighbours of `middle` on the grid is taken. -/
def pickNeighbour (tie : Tie) (inside : ℕ → Bool) (middle unit : ℕ) (power : ℤ) : Option Digits :=
  let lower := middle / unit
  let upper := lower + 1
  let below := middle - lower * unit
  let above := upper * unit - middle
  match inside lower, inside upper with
  | true, true =>
      some ⟨if takesUpper tie lower below above then upper else lower, power⟩
  | true, false => some ⟨lower, power⟩
  | false, true => some ⟨upper, power⟩
  | false, false => none

/-- What a quarter is multiplied by on the grid of a power of ten. -/
def gridFactor (x : Binary64) (power : ℤ) : ℕ := pow2 (x.exponent - 2).toNat * pow10 (-power).toNat

/-- The step of the grid of a power of ten, in the same units. -/
def gridUnit (x : Binary64) (power : ℤ) : ℕ := pow2 (-(x.exponent - 2)).toNat * pow10 power.toNat

theorem onGrid?_eq (tie : Tie) (x : Binary64) (power : ℤ) :
    onGrid? tie x power
      = pickNeighbour tie (holdsOnGrid x (x.gridFactor power) (x.gridUnit power))
          (x.quarters.2.1 * x.gridFactor power) (x.gridUnit power) power := rfl

/-- How far two natural numbers are apart. -/
def gap (a b : ℕ) : ℕ := (a - b) + (b - a)

/-- What lies between a multiple inside and the middle is inside. -/
def ClosedToward (inside : ℕ → Bool) (middle unit : ℕ) : Prop :=
  ∀ c c', inside c = true →
    (c ≤ c' ∧ c' * unit ≤ middle) ∨ (c' ≤ c ∧ middle ≤ c' * unit) → inside c' = true

section Neighbours

variable {tie : Tie} {inside : ℕ → Bool} {middle unit c : ℕ} {power : ℤ} {d : Digits}

/-- The neighbours stand on both sides of the middle. -/
theorem neighbours (middle : ℕ) (hunit : 0 < unit) :
    middle / unit * unit ≤ middle ∧ middle < (middle / unit + 1) * unit := by
  have hsplit : middle / unit * unit + middle % unit = middle := Nat.div_add_mod' middle unit
  have hrest : middle % unit < unit := Nat.mod_lt middle hunit
  rw [Nat.succ_mul]
  constructor <;> omega

/-- How far the neighbours are from the middle. -/
theorem gap_neighbours (middle : ℕ) (hunit : 0 < unit) :
    gap (middle / unit * unit) middle = middle - middle / unit * unit
      ∧ gap ((middle / unit + 1) * unit) middle = (middle / unit + 1) * unit - middle := by
  obtain ⟨hlow, hhigh⟩ := neighbours middle hunit
  unfold gap
  constructor <;> omega

/-- A multiple of the step is not nearer to the middle than the neighbour on its side. -/
theorem gap_neighbour_le (middle : ℕ) (hunit : 0 < unit) (c : ℕ) :
    (c ≤ middle / unit ∧ gap (middle / unit * unit) middle ≤ gap (c * unit) middle)
      ∨ middle / unit + 1 ≤ c
        ∧ gap ((middle / unit + 1) * unit) middle ≤ gap (c * unit) middle := by
  obtain ⟨hlow, hhigh⟩ := neighbours middle hunit
  rcases Nat.lt_or_ge (middle / unit) c with h | h
  · have hle : (middle / unit + 1) * unit ≤ c * unit := Nat.mul_le_mul_right unit h
    refine .inr ⟨h, ?_⟩
    unfold gap
    omega
  · have hle : c * unit ≤ middle / unit * unit := Nat.mul_le_mul_right unit h
    refine .inl ⟨h, ?_⟩
    unfold gap
    omega

theorem le_of_takesUpper {lower below above : ℕ} (h : takesUpper tie lower below above = true) :
    above ≤ below := by
  unfold takesUpper at h
  by_cases heq : below = above
  · exact heq.ge
  · rw [if_neg heq, decide_eq_true_iff] at h
    exact h.le

theorem le_of_not_takesUpper {lower below above : ℕ}
    (h : takesUpper tie lower below above = false) : below ≤ above := by
  unfold takesUpper at h
  by_cases heq : below = above
  · exact heq.le
  · rw [if_neg heq, decide_eq_false_iff_not] at h
    exact Nat.le_of_not_lt h

/-- What lies on the side of a neighbour that is not inside is not inside. -/
theorem not_inside_of_side (hunit : 0 < unit) (hclosed : ClosedToward inside middle unit)
    (hside : (c ≤ middle / unit ∧ inside (middle / unit) = false)
      ∨ middle / unit + 1 ≤ c ∧ inside (middle / unit + 1) = false) : inside c = false := by
  obtain ⟨hlow, hhigh⟩ := neighbours middle hunit
  rw [← Bool.not_eq_true]
  intro hc
  rcases hside with ⟨hle, hout⟩ | ⟨hle, hout⟩
  · rw [hclosed c _ hc (.inl ⟨hle, hlow⟩)] at hout
    cases hout
  · rw [hclosed c _ hc (.inr ⟨hle, hhigh.le⟩)] at hout
    cases hout

/-- If no neighbour is inside, no multiple is. -/
theorem not_inside_of_pick (hunit : 0 < unit) (hclosed : ClosedToward inside middle unit)
    (h : pickNeighbour tie inside middle unit power = none) : inside c = false := by
  unfold pickNeighbour at h
  simp only at h
  split at h
  · cases h
  · cases h
  · cases h
  · rename_i hlower hupper
    apply not_inside_of_side hunit hclosed
    rcases gap_neighbour_le middle hunit c with ⟨hle, -⟩ | ⟨hle, -⟩
    · exact .inl ⟨hle, hlower⟩
    · exact .inr ⟨hle, hupper⟩

/-- A neighbour that is taken is inside, and no multiple inside is nearer. -/
theorem nearest_of_pick (hunit : 0 < unit) (hclosed : ClosedToward inside middle unit)
    (h : pickNeighbour tie inside middle unit power = some d) :
    d.exponent = power ∧ inside d.digits = true
      ∧ ∀ c, inside c = true → gap (d.digits * unit) middle ≤ gap (c * unit) middle := by
  obtain ⟨hbelow, habove⟩ := gap_neighbours middle hunit
  unfold pickNeighbour at h
  simp only [← hbelow, ← habove] at h
  split at h
  · -- Both are inside, so the nearer one is taken.
    rename_i hlower hupper
    cases h
    cases htake : takesUpper tie (middle / unit) (gap (middle / unit * unit) middle)
        (gap ((middle / unit + 1) * unit) middle) with
    | true =>
        refine ⟨rfl, hupper, ?_⟩
        intro c hc
        rw [if_pos rfl]
        rcases gap_neighbour_le middle hunit c with ⟨-, hle⟩ | ⟨-, hle⟩
        · exact (le_of_takesUpper htake).trans hle
        · exact hle
    | false =>
        refine ⟨rfl, hlower, ?_⟩
        intro c hc
        rw [if_neg Bool.false_ne_true]
        rcases gap_neighbour_le middle hunit c with ⟨-, hle⟩ | ⟨-, hle⟩
        · exact hle
        · exact (le_of_not_takesUpper htake).trans hle
  · rename_i hlower hupper
    cases h
    refine ⟨rfl, hlower, ?_⟩
    intro c hc
    rcases gap_neighbour_le middle hunit c with ⟨-, hle⟩ | ⟨hside, -⟩
    · exact hle
    · rw [not_inside_of_side hunit hclosed (.inr ⟨hside, hupper⟩)] at hc
      cases hc
  · rename_i hlower hupper
    cases h
    refine ⟨rfl, hupper, ?_⟩
    intro c hc
    rcases gap_neighbour_le middle hunit c with ⟨hside, -⟩ | ⟨-, hle⟩
    · rw [not_inside_of_side hunit hclosed (.inl ⟨hside, hlower⟩)] at hc
      cases hc
    · exact hle
  · cases h

end Neighbours

/-- A whole number in the units in which its interval is measured. -/
theorem Whole.scaled_eq (h : Whole x v) :
    4 * x.significand * pow2 (x.exponent - 2).toNat = v * pow2 (-(x.exponent - 2)).toNat := by
  cases h with
  | @short negative v t hlow hhigh =>
      have hfactor : (-(t : ℤ) - 2).toNat = 0 := by omega
      have hunit : (-(-(t : ℤ) - 2)).toNat = t + 2 := by omega
      simp only [hfactor, hunit, pow2_eq]
      ring
  | @long negative s t hlow hhigh =>
      cases t with
      | zero =>
          have hfactor : (((0 : ℕ) : ℤ) + 1 - 2).toNat = 0 := rfl
          have hunit : (-(((0 : ℕ) : ℤ) + 1 - 2)).toNat = 1 := rfl
          simp only [hfactor, hunit, pow2_eq]
          ring
      | succ t =>
          have hfactor : (((t + 1 : ℕ) : ℤ) + 1 - 2).toNat = t := by omega
          have hunit : (-(((t + 1 : ℕ) : ℤ) + 1 - 2)).toNat = 0 := by omega
          simp only [hfactor, hunit, pow2_eq]
          ring

/-- On the grid of a natural power of ten a quarter is no further divided. -/
theorem gridFactor_natCast (x : Binary64) (p : ℕ) :
    x.gridFactor p = pow2 (x.exponent - 2).toNat := by
  have hzero : (-(p : ℤ)).toNat = 0 := by omega
  rw [gridFactor, hzero, pow10_eq, pow_zero, Nat.mul_one]

/-- How a multiple of a natural power of ten is measured. -/
theorem mul_gridUnit (x : Binary64) (c p : ℕ) :
    c * x.gridUnit p = c * 10 ^ p * pow2 (-(x.exponent - 2)).toNat := by
  rw [gridUnit, Int.toNat_natCast, pow10_eq, Nat.mul_comm (pow2 _), Nat.mul_assoc]

theorem gridUnit_pos (x : Binary64) (p : ℕ) : 0 < x.gridUnit p := by
  rw [gridUnit, pow2_eq, pow10_eq]
  positivity

/-- On the grid of a natural power of ten, the multiples in the interval are meant. -/
theorem holdsOnGrid_iff (x : Binary64) (c p : ℕ) :
    holdsOnGrid x (x.gridFactor p) (x.gridUnit p) c = true ↔ Holds x (c * 10 ^ p) := by
  rw [holdsOnGrid, mul_gridUnit, gridFactor_natCast, Holds]
  split <;> simp

theorem gap_mul (a b u : ℕ) : gap (a * u) (b * u) = gap a b * u := by
  rw [gap, gap, ← Nat.sub_mul, ← Nat.sub_mul, ← Nat.add_mul]

/-- The middle of the interval is the number, in the units of the grid. -/
theorem Whole.middle_eq (h : Whole x v) (p : ℕ) :
    x.quarters.2.1 * x.gridFactor p = v * pow2 (-(x.exponent - 2)).toNat := by
  have hmiddle : x.quarters.2.1 = 4 * x.significand := rfl
  rw [gridFactor_natCast, hmiddle, h.scaled_eq]

theorem Whole.closedToward (h : Whole x v) (p : ℕ) :
    ClosedToward (holdsOnGrid x (x.gridFactor p) (x.gridUnit p))
      (x.quarters.2.1 * x.gridFactor p) (x.gridUnit p) := by
  have hpos : 0 < pow2 (-(x.exponent - 2)).toNat := by
    rw [pow2_eq]
    positivity
  intro c c' hc hside
  rw [h.middle_eq, mul_gridUnit] at hside
  rw [holdsOnGrid_iff] at hc ⊢
  -- The number itself lies in the interval, and what is between two numbers of it does, too.
  rcases hside with ⟨hle, hv⟩ | ⟨hle, hv⟩
  · exact hc.between h.holds (Nat.mul_le_mul_right _ hle) (Nat.le_of_mul_le_mul_right hv hpos)
  · exact h.holds.between hc (Nat.le_of_mul_le_mul_right hv hpos) (Nat.mul_le_mul_right _ hle)

/-- Nothing is found on the grid of a power of ten if none of its multiples lies in the
interval. -/
theorem Whole.not_holds_of_onGrid? {tie : Tie} {p : ℕ} (h : Whole x v)
    (hfound : onGrid? tie x p = none) (c : ℕ) : ¬ Holds x (c * 10 ^ p) := by
  rw [onGrid?_eq] at hfound
  rw [← holdsOnGrid_iff, Bool.not_eq_true]
  exact not_inside_of_pick (gridUnit_pos x p) (h.closedToward p) hfound

/-- What is found lies in the interval, and no multiple that does is nearer. -/
theorem Whole.holds_of_onGrid? {tie : Tie} {p : ℕ} {d : Digits} (h : Whole x v)
    (hfound : onGrid? tie x p = some d) :
    d.exponent = p ∧ Holds x (d.digits * 10 ^ p)
      ∧ ∀ c, Holds x (c * 10 ^ p) → gap (d.digits * 10 ^ p) v ≤ gap (c * 10 ^ p) v := by
  have hpos : 0 < pow2 (-(x.exponent - 2)).toNat := by
    rw [pow2_eq]
    positivity
  rw [onGrid?_eq] at hfound
  obtain ⟨hexp, hinside, hnearest⟩ := nearest_of_pick (gridUnit_pos x p) (h.closedToward p) hfound
  rw [holdsOnGrid_iff] at hinside
  refine ⟨hexp, hinside, ?_⟩
  intro c hc
  have hle := hnearest c ((holdsOnGrid_iff x c p).2 hc)
  rw [h.middle_eq, mul_gridUnit, mul_gridUnit, gap_mul, gap_mul] at hle
  exact Nat.le_of_mul_le_mul_right hle hpos

/-! ## The search for the shortest decimal -/

/-- The width of a whole number is the number of its digits. -/
theorem Whole.decimalWidth_eq (h : Whole x v) : x.decimalWidth = (digitsOf v).length := by
  have hshifted : (if 0 ≤ x.exponent then x.significand * pow10 400 * pow2 x.exponent.toNat
      else x.significand * pow10 400 / pow2 (-x.exponent).toNat) = v * 10 ^ 400 := by
    rw [pow10_eq]
    generalize 10 ^ 400 = shift
    cases h with
    | @short negative v t hlow hhigh =>
        cases t with
        | zero => simp [pow2_eq]
        | succ t =>
            have hneg : ¬ (0 : ℤ) ≤ -((t + 1 : ℕ) : ℤ) := by omega
            have hpos : 0 < 2 ^ (t + 1) := by positivity
            rw [if_neg hneg, neg_neg, Int.toNat_natCast, pow2_eq, Nat.mul_right_comm,
              Nat.mul_div_cancel _ hpos]
    | @long negative s t hlow hhigh =>
        have hnonneg : (0 : ℤ) ≤ (t : ℤ) + 1 := by omega
        have hto : ((t : ℤ) + 1).toNat = t + 1 := by omega
        rw [if_pos hnonneg, hto, pow2_eq, Nat.mul_right_comm]
  unfold decimalWidth
  simp only
  rw [hshifted, ← digitsOf, digitsOf_mul_pow h.pos.ne', List.length_append, zeros,
    List.length_replicate]
  push_cast
  omega

/-- The power of ten of the grid that is tried after so many others. -/
theorem Whole.power_eq {n : ℕ} (h : Whole x v) (hn : n < (digitsOf v).length) :
    x.decimalWidth - (n + 1 : ℕ) = (((digitsOf v).length - (n + 1) : ℕ) : ℤ) := by
  rw [h.decimalWidth_eq]
  omega

/-- On one of the grids that are tried, the interval has a multiple; the last of them is still a
grid of whole numbers. -/
theorem Whole.exists_on_grid (h : Whole x v) (tie : Tie) :
    ∃ n < 17, n < (digitsOf v).length
      ∧ onGrid? tie x (x.decimalWidth - (n + 1 : ℕ)) ≠ none := by
  have hpos : 0 < (digitsOf v).length := Nat.length_toDigits_pos
  rcases Nat.lt_or_ge 17 (digitsOf v).length with hlong | hshort
  · refine ⟨16, by omega, by omega, ?_⟩
    intro hnone
    rw [h.power_eq (by omega)] at hnone
    obtain ⟨hlow, -⟩ := pow_le_and_lt_of_length h.pos.ne'
    have hsmall : 10 ^ 16 * 10 ^ ((digitsOf v).length - (16 + 1)) ≤ v := by
      rw [← pow_add]
      convert hlow using 2
      omega
    obtain ⟨c, hc⟩ := h.exists_multiple (by positivity) hsmall
    exact h.not_holds_of_onGrid? hnone c hc
  · refine ⟨(digitsOf v).length - 1, by omega, by omega, ?_⟩
    intro hnone
    have hzero : (digitsOf v).length - ((digitsOf v).length - 1 + 1) = 0 := by omega
    rw [h.power_eq (by omega), hzero] at hnone
    apply h.not_holds_of_onGrid? hnone v
    rw [pow_zero, Nat.mul_one]
    exact h.holds

/-- The search ends on the first grid on which something is found. -/
theorem Whole.exists_found (h : Whole x v) (tie : Tie) :
    ∃ n d, n < (digitsOf v).length ∧ x.shortest tie = d.trimmed 17
      ∧ onGrid? tie x (((digitsOf v).length - (n + 1) : ℕ) : ℤ) = some d
      ∧ ∀ i < n, onGrid? tie x (((digitsOf v).length - (i + 1) : ℕ) : ℤ) = none := by
  obtain ⟨m, hm, hwidth, hsome⟩ := h.exists_on_grid tie
  cases hsearch : (List.range 17).findSome? fun n : ℕ =>
      onGrid? tie x (x.decimalWidth - (n + 1 : ℕ)) with
  | none =>
      rw [List.findSome?_eq_none_iff] at hsearch
      exact absurd (hsearch m (List.mem_range.2 hm)) hsome
  | some d =>
      obtain ⟨n, -, hfound, hbefore⟩ := exists_of_findSome?_range hsearch
      have hn : n ≤ m := by
        by_contra hlt
        exact hsome (hbefore m (Nat.lt_of_not_le hlt))
      refine ⟨n, d, hn.trans_lt hwidth, ?_, ?_, ?_⟩
      · rw [shortest, if_neg h.significand_ne_zero]
        simp only [hsearch]
      · rw [← h.power_eq (hn.trans_lt hwidth)]
        exact hfound
      · intro i hi
        rw [← h.power_eq ((hi.trans_le hn).trans hwidth)]
        exact hbefore i hi

/-- A natural number of an interval is shortest: it ends in as many zeros as any of the interval,
and none that ends in as many is nearer to the middle. -/
structure ShortestIn (x : Binary64) (v k : ℕ) : Prop where
  /-- It lies in the interval. -/
  holds : Holds x k
  /-- It ends in as many zeros as any. -/
  zeros : ∀ j z, Holds x j → 10 ^ z ∣ j → 10 ^ z ∣ k
  /-- None that ends in as many is nearer. -/
  nearest : ∀ j, Holds x j → (∀ z, 10 ^ z ∣ k → 10 ^ z ∣ j) → gap k v ≤ gap j v

theorem Whole.holds_ne_zero (h : Whole x v) (hk : Holds x k) : k ≠ 0 := by
  rintro rfl
  have hzero : 0 = x.significand := congrArg significand (h.holds_iff.1 hk)
  exact h.significand_ne_zero hzero.symm

/-- Two numbers of an interval are the same if both are multiples of a number that is hardly
shorter. -/
theorem Whole.eq_of_dvd {g : ℕ} (h : Whole x v) (hg : v < 10 * g) (hk : Holds x k)
    (hj : Holds x j) (hgk : g ∣ k) (hgj : g ∣ j) : k = j := by
  have hle : ∀ {a b : ℕ}, Holds x a → Holds x b → g ∣ a → g ∣ b → a ≤ b := by
    intro a b ha hb hga hgb
    by_contra hlt
    have hgap : g ≤ a - b := Nat.le_of_dvd (by omega) (Nat.dvd_sub hga hgb)
    have hsub := h.sub_le hb ha
    omega
  exact le_antisymm (hle hk hj hgk hgj) (hle hj hk hgj hgk)

/-- **The search finds a shortest number.** -/
theorem Whole.shortestIn (h : Whole x v) (tie : Tie) :
    ∃ k, ShortestIn x v k ∧ 0 ≤ (x.shortest tie).exponent
      ∧ (x.shortest tie).digits * 10 ^ (x.shortest tie).exponent.toNat = k := by
  obtain ⟨n, d, hn, hshortest, hfound, hbefore⟩ := h.exists_found tie
  obtain ⟨hlow, hhigh⟩ := pow_le_and_lt_of_length h.pos.ne'
  generalize (digitsOf v).length = width at hn hfound hbefore hlow hhigh
  obtain ⟨hexp, hholds, hnear⟩ := h.holds_of_onGrid? hfound
  obtain ⟨hsign, hvalue⟩ := d.trimmed_value 17 (by rw [hexp]; omega)
  rw [hexp, Int.toNat_natCast] at hvalue
  refine ⟨d.digits * 10 ^ (width - (n + 1)), ⟨hholds, ?_, ?_⟩, ?_, ?_⟩
  · intro j z hj hdvd
    rcases Nat.lt_or_ge (width - (n + 1)) z with hlt | hle
    · rcases Nat.lt_or_ge z width with hless | hmore
      · -- A coarser grid was tried before, and nothing was found there.
        obtain ⟨c, rfl⟩ := hdvd
        have hnone := hbefore (width - (z + 1)) (by omega)
        have hz : width - (width - (z + 1) + 1) = z := by omega
        rw [hz] at hnone
        rw [Nat.mul_comm] at hj
        exact absurd hj (h.not_holds_of_onGrid? hnone c)
      · -- A power of ten above the number is as near as a multiple of the one below can be.
        obtain rfl : n = 0 := by
          by_contra hne
          have hnone := hbefore 0 (by omega)
          obtain ⟨c, rfl⟩ := (pow_dvd_pow 10 (by omega : width - (0 + 1) ≤ z)).trans hdvd
          rw [Nat.mul_comm] at hj
          exact h.not_holds_of_onGrid? hnone c hj
        have hgrid : 10 ^ (width - (0 + 1)) ∣ j := (pow_dvd_pow 10 (by omega)).trans hdvd
        have hten : v < 10 * 10 ^ (width - (0 + 1)) := by
          rw [← pow_succ']
          convert hhigh using 2
          omega
        rwa [h.eq_of_dvd hten hholds hj (Dvd.intro_left _ rfl) hgrid]
    · exact (pow_dvd_pow 10 hle).trans (Dvd.intro_left _ rfl)
  · intro j hj hall
    obtain ⟨c, rfl⟩ := hall (width - (n + 1)) (Dvd.intro_left _ rfl)
    rw [Nat.mul_comm (10 ^ _)] at hj ⊢
    exact hnear c hj
  · rwa [hshortest]
  · rwa [hshortest]

end Binary64

end ApiTypes.Decimal
