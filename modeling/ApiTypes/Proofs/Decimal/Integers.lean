import ApiTypes.Proofs.Decimal.Canonical
import ApiTypes.Proofs.Decimal.Whole

/-!
# Integers that pass through the binary format

An integer that is rounded and then written is in general another one. What is written is the
shortest of the integers that are rounded alike: it ends in as many zeros as any of them, and none
that ends in as many is nearer to the rounded number (`Binary64.positional_ofInt`). Up to `2 ^ 53`
no two integers are rounded alike, and the integer itself is written
(`Binary64.Shortest.eq_of_le`). Beyond, no odd integer ever is (`Binary64.Shortest.ne_of_odd`).
-/

set_option autoImplicit false

namespace ApiTypes.Decimal

namespace Binary64

variable {x : Binary64} {v k j : ℕ} {n : ℤ}

/-! ## Values -/

/-- The number that is meant. -/
def value (x : Binary64) : ℚ :=
  (if x.negative then -1 else 1) * (x.significand * (2 : ℚ) ^ x.exponent)

@[simp] theorem negative_nearest (negative : Bool) (num den : ℕ) :
    (nearest negative num den).negative = negative := by
  unfold nearest
  simp only
  split
  · rfl
  · split <;> rfl

/-- A sign, as a factor. -/
def signed (negative : Bool) (k : ℕ) : ℤ := if negative then -(k : ℤ) else k

theorem signed_natAbs (n : ℤ) : signed (decide (n < 0)) n.natAbs = n := by
  unfold signed
  by_cases hn : n < 0
  · simp only [hn, decide_true, if_true]
    omega
  · simp only [hn, decide_false, Bool.false_eq_true, if_false]
    omega

theorem Whole.value_eq (h : Whole x v) : x.value = signed x.negative v := by
  have hmagnitude : (x.significand : ℚ) * (2 : ℚ) ^ x.exponent = v := by
    cases h with
    | @short negative v t hlow hhigh =>
        have hpow : ((2 : ℚ) ^ t) ≠ 0 := by positivity
        simp only [zpow_neg, zpow_natCast]
        push_cast
        rw [mul_inv_cancel_right₀ hpow]
    | @long negative s t hlow hhigh =>
        have hexp : (t : ℤ) + 1 = ((t + 1 : ℕ) : ℤ) := by push_cast; rfl
        simp only [hexp, zpow_natCast]
        push_cast
        rfl
  rw [value, hmagnitude]
  cases x.negative <;> simp [signed]

theorem natAbs_signed (negative : Bool) (k : ℕ) : (signed negative k).natAbs = k := by
  cases negative with
  | true => simp [signed]
  | false => simp [signed]

theorem decide_signed_lt_zero (negative : Bool) (hk : k ≠ 0) :
    decide (signed negative k < 0) = negative := by
  cases negative with
  | true =>
      rw [decide_eq_true_iff, signed, if_pos rfl]
      omega
  | false =>
      rw [decide_eq_false_iff_not, signed, if_neg Bool.false_ne_true]
      omega

theorem ofInt_signed (negative : Bool) (hk : k ≠ 0) :
    ofInt (signed negative k) = nearest negative k 1 := by
  rw [ofInt, natAbs_signed, decide_signed_lt_zero negative hk]

theorem ofInt_zero : ofInt 0 = zero := rfl

theorem exists_whole_ofInt (hn : n ≠ 0) : ∃ v, Whole (ofInt n) v :=
  exists_whole_nearest (Int.natAbs_ne_zero.2 hn)

theorem ofInt_eq_zero_iff : ofInt n = zero ↔ n = 0 := by
  constructor
  · intro h
    by_contra hn
    obtain ⟨v, hwhole⟩ := exists_whole_ofInt hn
    rw [h] at hwhole
    exact hwhole.significand_ne_zero rfl
  · rintro rfl
    rfl

/-- An integer is rounded like another one if it has the same sign and lies in the interval. -/
theorem ofInt_eq_iff {m : ℤ} (h : Whole (ofInt n) v) :
    ofInt m = ofInt n
      ↔ ∃ k, m = signed (ofInt n).negative k ∧ Holds (ofInt n) k := by
  constructor
  · intro heq
    have hsign : decide (m < 0) = (ofInt n).negative := by
      rw [← heq, ofInt, negative_nearest]
    refine ⟨m.natAbs, ?_, ?_⟩
    · rw [← hsign, signed_natAbs]
    · rw [h.holds_iff, ← hsign]
      exact heq
  · rintro ⟨k, rfl, hk⟩
    rw [ofInt_signed _ (h.holds_ne_zero hk)]
    exact h.holds_iff.1 hk

/-! ## What is written -/

theorem integerText_signed (negative : Bool) (hk : k ≠ 0) :
    integerText (signed negative k) = String.ofList (signOf negative ++ digitsOf k) := by
  rw [integerText, natAbs_signed, decide_signed_lt_zero negative hk]

/-- The integer that a text of digits, with or without a minus sign, stands for. -/
def readInteger : List Char → ℤ
  | '-' :: digits => -(Nat.ofDigitChars 10 digits 0 : ℤ)
  | digits => Nat.ofDigitChars 10 digits 0

theorem readInteger_digitsOf (n : ℕ) : readInteger (digitsOf n) = n := by
  have hread : Nat.ofDigitChars 10 (digitsOf n) 0 = n := Nat.ofDigitChars_ten_toDigits
  unfold readInteger
  split
  · rename_i digits hdigits
    have hmem : '-' ∈ Nat.toDigits 10 n := by
      rw [← digitsOf, hdigits]
      exact List.mem_cons_self
    exact absurd (Nat.isDigit_of_mem_toDigits (by decide) (by decide) hmem) (by decide)
  · rw [hread]

/-- What is written for an integer is read as the integer. -/
theorem readInteger_integerText (n : ℤ) : readInteger (integerText n).toList = n := by
  rw [integerText, String.toList_ofList]
  by_cases hn : n < 0
  · have hread : Nat.ofDigitChars 10 (digitsOf n.natAbs) 0 = n.natAbs :=
      Nat.ofDigitChars_ten_toDigits
    simp only [hn, decide_true, signOf, if_true, List.singleton_append, readInteger, hread]
    omega
  · simp only [hn, decide_false, signOf, Bool.false_eq_true, if_false, List.nil_append,
      readInteger_digitsOf]
    omega

theorem integerText_injective : Function.Injective integerText := by
  intro m n h
  rw [← readInteger_integerText m, h, readInteger_integerText]

/-- A whole number is written as a shortest number of its interval, with its sign. -/
theorem Whole.positional_eq (h : Whole x v) :
    ∃ k, ShortestIn x v k ∧ positional x = integerText (signed x.negative k) := by
  obtain ⟨k, hshortest, hsign, hvalue⟩ := h.shortestIn .away
  have hk : k ≠ 0 := h.holds_ne_zero hshortest.holds
  have hdigits : (x.shortest .away).digits ≠ 0 := by
    intro hzero
    rw [hzero, Nat.zero_mul] at hvalue
    exact hk hvalue.symm
  refine ⟨k, hshortest, ?_⟩
  rw [integerText_signed _ hk, ← hvalue, digitsOf_mul_pow hdigits]
  unfold positional
  simp only [if_pos hsign, if_neg hdigits]

/-- An integer stands for those that are rounded like another one: it is one of them, it ends in as
many zeros as any of them, and none that ends in as many is nearer to what they are rounded to. -/
structure Shortest (n m : ℤ) : Prop where
  /-- It is rounded like the other one. -/
  alike : ofInt m = ofInt n
  /-- It ends in as many zeros as any. -/
  zeros : ∀ (j : ℤ) (z : ℕ), ofInt j = ofInt n → 10 ^ z ∣ j → 10 ^ z ∣ m
  /-- None that ends in as many is nearer. -/
  nearest : ∀ j : ℤ, ofInt j = ofInt n → (∀ z : ℕ, (10 : ℤ) ^ z ∣ m → 10 ^ z ∣ j) →
    |(m : ℚ) - (ofInt n).value| ≤ |(j : ℚ) - (ofInt n).value|

theorem dvd_signed_iff (negative : Bool) (k z : ℕ) :
    (10 : ℤ) ^ z ∣ signed negative k ↔ 10 ^ z ∣ k := by
  have hcast : ((10 : ℤ) ^ z) = ((10 ^ z : ℕ) : ℤ) := by push_cast; rfl
  rw [hcast]
  cases negative with
  | true => simp only [signed, if_true, Int.dvd_neg, Int.natCast_dvd_natCast]
  | false => simp only [signed, Bool.false_eq_true, if_false, Int.natCast_dvd_natCast]

theorem abs_natCast_sub (a b : ℕ) : |(a : ℚ) - b| = gap a b := by
  rcases Nat.le_total a b with h | h
  · have hcast : (a : ℚ) ≤ b := by exact_mod_cast h
    rw [abs_of_nonpos (by linarith), gap, Nat.sub_eq_zero_of_le h, Nat.zero_add, Nat.cast_sub h]
    ring
  · have hcast : (b : ℚ) ≤ a := by exact_mod_cast h
    rw [abs_of_nonneg (by linarith), gap, Nat.sub_eq_zero_of_le h, Nat.add_zero, Nat.cast_sub h]

theorem Whole.abs_sub_value (h : Whole x v) (k : ℕ) :
    |((signed x.negative k : ℤ) : ℚ) - x.value| = gap k v := by
  rw [h.value_eq, ← abs_natCast_sub]
  cases x.negative with
  | true =>
      have hneg : ((signed true k : ℤ) : ℚ) - (signed true v : ℤ) = -((k : ℚ) - v) := by
        simp only [signed, if_true]
        push_cast
        ring
      rw [hneg, abs_neg]
  | false => simp [signed]

theorem ShortestIn.shortest (hwhole : Whole (ofInt n) v) (h : ShortestIn (ofInt n) v k) :
    Shortest n (signed (ofInt n).negative k) := by
  constructor
  · exact (ofInt_eq_iff hwhole).2 ⟨k, rfl, h.holds⟩
  · intro m z hm hdvd
    obtain ⟨j, rfl, hj⟩ := (ofInt_eq_iff hwhole).1 hm
    rw [dvd_signed_iff] at hdvd ⊢
    exact h.zeros j z hj hdvd
  · intro m hm hall
    obtain ⟨j, rfl, hj⟩ := (ofInt_eq_iff hwhole).1 hm
    rw [hwhole.abs_sub_value, hwhole.abs_sub_value, Nat.cast_le]
    apply h.nearest j hj
    intro z hz
    have hsigned := hall z ((dvd_signed_iff _ k z).2 hz)
    exact (dvd_signed_iff _ j z).1 hsigned

/-- **An integer is written as the shortest one that is rounded alike.** -/
theorem positional_ofInt (n : ℤ) : ∃ m, positional (ofInt n) = integerText m ∧ Shortest n m := by
  by_cases hn : n = 0
  · subst hn
    refine ⟨0, by decide, rfl, fun _ _ _ _ => dvd_zero _, ?_⟩
    intro j hj _
    rw [ofInt_zero, ofInt_eq_zero_iff] at hj
    rw [hj]
  · obtain ⟨v, hwhole⟩ := exists_whole_ofInt hn
    obtain ⟨k, hshortest, htext⟩ := hwhole.positional_eq
    exact ⟨_, htext, hshortest.shortest hwhole⟩

/-! ## Which integers are written unchanged -/

/-- A shortest number without zeros at its end is the number that the others are rounded to. -/
theorem Shortest.eq_value {m : ℤ} (h : Shortest n m) (hdvd : ¬ (10 : ℤ) ∣ m) :
    (m : ℚ) = (ofInt n).value := by
  by_cases hn : n = 0
  · subst hn
    have hm : m = 0 := ofInt_eq_zero_iff.1 h.alike
    rw [hm] at hdvd
    exact absurd (dvd_zero 10) hdvd
  · obtain ⟨v, hwhole⟩ := exists_whole_ofInt hn
    have halike : ofInt (signed (ofInt n).negative v) = ofInt n :=
      (ofInt_eq_iff hwhole).2 ⟨v, rfl, hwhole.holds⟩
    have hnearest := h.nearest _ halike (by
      intro z hz
      cases z with
      | zero => simp
      | succ z => exact absurd ((dvd_pow_self 10 z.succ_ne_zero).trans hz) hdvd)
    have hself : gap v v = 0 := by simp [gap]
    rw [hwhole.abs_sub_value, hself, Nat.cast_zero, abs_nonpos_iff, sub_eq_zero] at hnearest
    exact hnearest

/-- Below `2 ^ 53` no two integers are rounded alike. -/
theorem eq_of_ofInt_eq {m : ℤ} (hlt : n.natAbs < 2 ^ 53) (h : ofInt m = ofInt n) : m = n := by
  by_cases hn : n = 0
  · subst hn
    exact ofInt_eq_zero_iff.1 h
  · have hsign : decide (m < 0) = decide (n < 0) := by
      have hneg := congrArg negative h
      rwa [ofInt, ofInt, negative_nearest, negative_nearest] at hneg
    have habs : m.natAbs = n.natAbs := by
      rw [ofInt, ofInt, hsign] at h
      exact (nearest_eq_nearest_iff (Int.natAbs_ne_zero.2 hn) hlt).1 h
    rw [← signed_natAbs m, ← signed_natAbs n, hsign, habs]

theorem ofInt_of_natAbs_eq (hn : n.natAbs = 2 ^ 53) :
    ofInt n = ⟨decide (n < 0), 2 ^ 52, ((0 : ℕ) : ℤ) + 1⟩ := by
  rw [ofInt, hn]
  cases decide (n < 0) <;> decide +kernel

/-- Up to `2 ^ 53` an integer is kept. -/
theorem whole_ofInt_of_le (hn : n ≠ 0) (hle : n.natAbs ≤ 2 ^ 53) : Whole (ofInt n) n.natAbs := by
  rcases Nat.lt_or_eq_of_le hle with hlt | heq
  · exact whole_nearest_of_lt (Int.natAbs_ne_zero.2 hn) hlt
  · have hsame : n.natAbs = 2 ^ 52 * 2 ^ (0 + 1) := by rw [heq]; norm_num
    rw [ofInt_of_natAbs_eq heq, hsame]
    exact .long (by norm_num) (by norm_num)

theorem value_ofInt (hle : n.natAbs ≤ 2 ^ 53) : (ofInt n).value = n := by
  by_cases hn : n = 0
  · subst hn
    simp [ofInt_zero, value, zero]
  · rw [(whole_ofInt_of_le hn hle).value_eq, ofInt, negative_nearest, signed_natAbs]

/-- The greatest integer up to which all are kept, and its negative. -/
theorem Shortest.eq_of_natAbs_eq {m : ℤ} (h : Shortest n m) (hn : n.natAbs = 2 ^ 53) : m = n := by
  have hne : n ≠ 0 := by
    rintro rfl
    cases hn
  have hwhole := whole_ofInt_of_le hne hn.le
  obtain ⟨k, rfl, hk⟩ := (ofInt_eq_iff hwhole).1 h.alike
  have hdvd : ¬ (10 : ℤ) ∣ signed (ofInt n).negative k := by
    have hiff := dvd_signed_iff (ofInt n).negative k 1
    rw [pow_one, pow_one] at hiff
    -- Only the next number is rounded to it as well.
    rw [ofInt_of_natAbs_eq hn, holds_step_iff (by norm_num), if_pos (by norm_num), below,
      if_pos rfl] at hk
    rw [hiff]
    omega
  have heq := h.eq_value hdvd
  rw [value_ofInt hn.le] at heq
  exact_mod_cast heq

/-- **Up to `2 ^ 53` an integer is written unchanged.** -/
theorem Shortest.eq_of_le {m : ℤ} (h : Shortest n m) (hn : n.natAbs ≤ 2 ^ 53) : m = n := by
  rcases Nat.lt_or_eq_of_le hn with hlt | heq
  · exact eq_of_ofInt_eq hlt h.alike
  · exact h.eq_of_natAbs_eq heq

/-- **Beyond `2 ^ 53` no odd integer is written unchanged.** -/
theorem Shortest.ne_of_odd {m : ℤ} (h : Shortest n m) (hn : 2 ^ 53 < n.natAbs) (hodd : Odd n) :
    m ≠ n := by
  rintro rfl
  obtain ⟨s, t, hlow, hhigh, hnearest⟩ := nearest_of_le (decide (m < 0)) hn.le
  have hwhole : Whole (ofInt m) (s * 2 ^ (t + 1)) := by
    rw [ofInt, hnearest]
    exact .long hlow hhigh
  have hdvd : ¬ (10 : ℤ) ∣ m := by
    intro hten
    have htwo : (2 : ℤ) ∣ m := (by norm_num : (2 : ℤ) ∣ 10).trans hten
    exact (Int.not_even_iff_odd.2 hodd) (even_iff_two_dvd.2 htwo)
  -- What it is rounded to is a multiple of two.
  have hvalue := h.eq_value hdvd
  rw [hwhole.value_eq, Int.cast_inj, ofInt, negative_nearest] at hvalue
  apply Int.not_even_iff_odd.2 hodd
  rw [hvalue, even_iff_two_dvd, pow_succ, ← Nat.mul_assoc]
  cases decide (m < 0) with
  | true => simp [signed]
  | false => simp [signed]

/-! ## Integers among binary numbers -/

/-- Zero with a minus sign. -/
def negativeZero : Binary64 := ⟨true, 0, minExponent⟩

/-- A binary number that is an integer other than zero is a whole number. -/
theorem Canonical.whole (h : Canonical x) (hk : k ≠ 0)
    (hvalue : (x.significand : ℚ) * (2 : ℚ) ^ x.exponent = k) : Whole x k := by
  obtain ⟨negative, s, e⟩ := x
  obtain ⟨hlt, hle, hfull⟩ := h
  simp only at hlt hle hfull hvalue
  rcases lt_or_ge 0 e with hpos | hneg
  · obtain ⟨t, ht⟩ := Int.eq_ofNat_of_zero_le (by omega : 0 ≤ e - 1)
    obtain rfl : e = (t : ℤ) + 1 := by omega
    have hexp : (t : ℤ) + 1 = ((t + 1 : ℕ) : ℤ) := by push_cast; rfl
    rw [hexp, zpow_natCast] at hvalue
    obtain rfl : s * 2 ^ (t + 1) = k := by exact_mod_cast hvalue
    apply Whole.long _ hlt
    apply hfull
    rw [minExponent]
    omega
  · obtain ⟨t, ht⟩ := Int.eq_ofNat_of_zero_le (by omega : 0 ≤ -e)
    obtain rfl : e = -(t : ℤ) := by omega
    have hpow : ((2 : ℚ) ^ t) ≠ 0 := by positivity
    rw [zpow_neg, zpow_natCast, mul_inv_eq_iff_eq_mul₀ hpow] at hvalue
    obtain rfl : s = k * 2 ^ t := by exact_mod_cast hvalue
    apply Whole.short _ hlt
    by_contra hless
    -- With the least exponent, one is already too great.
    have hgreat : 53 ≤ t := by
      have hnot : ¬ minExponent < -(t : ℤ) := fun hfew => hless (hfull hfew)
      rw [minExponent] at hnot
      omega
    have hpow : 2 ^ 53 ≤ 2 ^ t := Nat.pow_le_pow_right (by norm_num) hgreat
    have hmul : 2 ^ t ≤ k * 2 ^ t := Nat.le_mul_of_pos_left _ (Nat.pos_of_ne_zero hk)
    omega

theorem magnitude_nonneg (x : Binary64) :
    (0 : ℚ) ≤ (x.significand : ℚ) * (2 : ℚ) ^ x.exponent :=
  mul_nonneg (Nat.cast_nonneg _) (zpow_pos (by norm_num) _).le

/-- An integer other than zero tells the sign of a binary number and what it is without it. -/
theorem sign_of_value (hn : n ≠ 0) (h : x.value = n) :
    x.negative = decide (n < 0)
      ∧ (x.significand : ℚ) * (2 : ℚ) ^ x.exponent = n.natAbs := by
  have hmagnitude := magnitude_nonneg x
  rw [value] at h
  cases hneg : x.negative with
  | true =>
      rw [hneg, if_pos rfl] at h
      have hle : (n : ℚ) ≤ 0 := by linarith
      have hlt : n < 0 := lt_of_le_of_ne (by exact_mod_cast hle) hn
      have habs : ((n.natAbs : ℕ) : ℚ) = -(n : ℚ) := by
        rw [← Int.cast_natCast, Int.ofNat_natAbs_of_nonpos hlt.le]
        push_cast
        rfl
      refine ⟨by simp [hlt], ?_⟩
      rw [habs]
      linarith
  | false =>
      rw [hneg, if_neg Bool.false_ne_true, one_mul] at h
      have hle : (0 : ℚ) ≤ n := by linarith
      have hge : 0 ≤ n := by exact_mod_cast hle
      have habs : ((n.natAbs : ℕ) : ℚ) = (n : ℚ) := by
        rw [← Int.cast_natCast, Int.natAbs_of_nonneg hge]
      refine ⟨by simp [hge], ?_⟩
      rw [habs, h]

/-- There are two zeros. -/
theorem Canonical.eq_zero (h : Canonical x) (hvalue : x.value = 0) :
    x = zero ∨ x = negativeZero := by
  have hpow : ((2 : ℚ) ^ x.exponent) ≠ 0 := (zpow_pos (by norm_num) _).ne'
  have hzero : x.significand = 0 := by
    have hsign : (if x.negative then (-1 : ℚ) else 1) ≠ 0 := by
      split <;> norm_num
    have hmagnitude := (mul_eq_zero.1 hvalue).resolve_left hsign
    exact_mod_cast (mul_eq_zero.1 hmagnitude).resolve_right hpow
  have hexp : x.exponent = minExponent := by
    have hnot : ¬ minExponent < x.exponent := by
      intro hlt
      have hfull := h.full hlt
      omega
    exact le_antisymm (not_lt.1 hnot) h.le
  obtain ⟨negative, s, e⟩ := x
  simp only at hzero hexp
  subst hzero hexp
  cases negative with
  | true => exact .inr rfl
  | false => exact .inl rfl

/-- **A binary number that is an integer is what the integer is rounded to**, unless it is zero with
a minus sign. -/
theorem Canonical.eq_ofInt (h : Canonical x) (hvalue : x.value = n) :
    x = ofInt n ∨ n = 0 ∧ x = negativeZero := by
  by_cases hn : n = 0
  · subst hn
    rcases h.eq_zero (by simpa using hvalue) with hzero | hzero
    · exact .inl hzero
    · exact .inr ⟨rfl, hzero⟩
  · obtain ⟨hsign, hmagnitude⟩ := sign_of_value hn hvalue
    have hwhole : Whole x n.natAbs := h.whole (Int.natAbs_ne_zero.2 hn) hmagnitude
    have hnearest := hwhole.holds_iff.1 hwhole.holds
    rw [hsign] at hnearest
    exact .inl hnearest.symm

/-- What is written for an integer of at most 53 bits is read as the integer. -/
theorem Canonical.readInteger_positional (h : Canonical x) (hvalue : x.value = n)
    (hn : n.natAbs ≤ 2 ^ 53) : readInteger (positional x).toList = n := by
  rcases h.eq_ofInt hvalue with rfl | ⟨rfl, rfl⟩
  · obtain ⟨m, htext, hshortest⟩ := positional_ofInt n
    rw [htext, readInteger_integerText, hshortest.eq_of_le hn]
  · decide

end Binary64

end ApiTypes.Decimal
