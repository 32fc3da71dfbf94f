import ApiTypes.Text.Percent
import Mathlib.Data.List.Basic

/-!
# What percent decoding leaves

A percent escape is a percent sign with two hexadecimal digits after it (`BeginsEscape`). A text is
read as bytes piece by piece: an escape is one byte, and every other character is the bytes of the
character. The bytes of a character are read as that character again (`decodeUtf8_utf8Bytes`), and
since none of them but the later ones continues a character, what a byte of an escape takes with it
are bytes of other escapes.

So a text without escapes is left as it is, and a text with one becomes shorter: percent decoding
leaves a text as it is exactly if there is no escape in it (`percentDecode_eq_self_iff`).
-/

set_option autoImplicit false

namespace ApiTypes.Text

/-! ## Escapes -/

/-- A text begins with a percent sign and two hexadecimal digits. -/
def BeginsEscape (text : List Char) : Prop :=
  ∃ a b rest, text = '%' :: a :: b :: rest ∧ (hexValue? a).isSome ∧ (hexValue? b).isSome

/-- There is a percent sign with two hexadecimal digits after it in a text. -/
def HasEscape (text : List Char) : Prop :=
  ∃ before after, text = before ++ after ∧ BeginsEscape after

theorem not_beginsEscape_nil : ¬ BeginsEscape [] := by
  rintro ⟨a, b, rest, h, -⟩
  cases h

theorem not_hasEscape_nil : ¬ HasEscape [] := by
  rintro ⟨before, after, h, hbegins⟩
  obtain ⟨rfl, rfl⟩ := List.append_eq_nil_iff.mp h.symm
  exact not_beginsEscape_nil hbegins

theorem hasEscape_cons_iff {c : Char} {rest : List Char} :
    HasEscape (c :: rest) ↔ BeginsEscape (c :: rest) ∨ HasEscape rest := by
  constructor
  · rintro ⟨before, after, h, hbegins⟩
    cases before with
    | nil =>
        left
        rw [h]
        exact hbegins
    | cons d before =>
        right
        rw [List.cons_append, List.cons.injEq] at h
        exact ⟨before, after, h.2, hbegins⟩
  · rintro (hbegins | ⟨before, after, rfl, hbegins⟩)
    · exact ⟨[], c :: rest, rfl, hbegins⟩
    · exact ⟨c :: before, after, rfl, hbegins⟩

/-! ## The bytes of a text -/

variable {text rest : List Char}

theorem percentBytes_escape {a b : Char} {high low : Nat} (ha : hexValue? a = some high)
    (hb : hexValue? b = some low) :
    percentBytes ('%' :: a :: b :: rest) = (16 * high + low) :: percentBytes rest := by
  rw [percentBytes]
  simp only [ha, hb]

/-- A character that begins no escape is read as its bytes, a percent sign too. -/
theorem percentBytes_cons {c : Char} (h : ¬ BeginsEscape (c :: rest)) :
    percentBytes (c :: rest) = utf8Bytes c ++ percentBytes rest := by
  conv_lhs => rw [percentBytes.eq_def]
  split
  · contradiction
  · rename_i a b more heq
    cases heq
    split
    · rename_i high low ha hb
      refine absurd ⟨a, b, more, rfl, ?_, ?_⟩ h
      · rw [ha]
        rfl
      · rw [hb]
        rfl
    · rfl
  · rename_i heq
    cases heq
    rfl

/-- The first byte of a character continues no other one. -/
theorem exists_utf8Bytes (c : Char) :
    ∃ first more, utf8Bytes c = first :: more ∧ (first < 0x80 ∨ 0xBF < first) := by
  simp only [utf8Bytes]
  split
  · exact ⟨_, _, rfl, by omega⟩
  · split
    · exact ⟨_, _, rfl, by omega⟩
    · split
      · exact ⟨_, _, rfl, by omega⟩
      · exact ⟨_, _, rfl, by omega⟩

/-! ## Bytes as characters -/

theorem leadByte?_bounds {b count low high : Nat} (h : leadByte? b = some (count, low, high)) :
    0x80 ≤ low ∧ high ≤ 0xBF := by
  rw [leadByte?] at h
  split_ifs at h <;> simp only [Option.some.injEq, Prod.mk.injEq] at h <;> omega

/-- A byte below 128 is a character. -/
theorem decodeUtf8_ascii {b : Nat} (h : b < 0x80) (bytes : List Nat) :
    decodeUtf8 (b :: bytes) = Char.ofNat b :: decodeUtf8 bytes := by
  rw [decodeUtf8, if_pos h]

/-- A first byte with all the bytes that it asks for is a character. -/
theorem decodeUtf8_lead {b count low high n : Nat} {bytes left : List Nat} (hb : 0x80 ≤ b)
    (hlead : leadByte? b = some (count, low, high))
    (htaken : takeContinuation count low high (leadBits count b) bytes = (n, 0, left)) :
    decodeUtf8 (b :: bytes) = Char.ofNat n :: decodeUtf8 left := by
  rw [decodeUtf8, if_neg (by omega), hlead]
  simp only [htaken, if_true]

theorem takeContinuation_zero (low high acc : Nat) (bytes : List Nat) :
    takeContinuation 0 low high acc bytes = (acc, 0, bytes) := by
  rw [takeContinuation]

theorem takeContinuation_cons {count low high acc b : Nat} (h : low ≤ b ∧ b ≤ high)
    (bytes : List Nat) :
    takeContinuation (count + 1) low high acc (b :: bytes)
      = takeContinuation count 0x80 0xBF (acc * 0x40 + (b - 0x80)) bytes := by
  rw [takeContinuation, if_pos h]

theorem leadByte?_two {b : Nat} (h : 0xC2 ≤ b ∧ b ≤ 0xDF) :
    leadByte? b = some (1, 0x80, 0xBF) := by
  rw [leadByte?, if_pos h]

/-- A first byte of three asks for a second one that makes no overlong form and no surrogate. -/
theorem leadByte?_three (b second : Nat) (h : 0xE0 ≤ b ∧ b ≤ 0xEF)
    (hsecond : 0x80 ≤ second ∧ second ≤ 0xBF) (hlong : b = 0xE0 → 0xA0 ≤ second)
    (hsurrogate : b = 0xED → second ≤ 0x9F) :
    ∃ low high, leadByte? b = some (2, low, high) ∧ low ≤ second ∧ second ≤ high := by
  rw [leadByte?, if_neg (by omega)]
  split_ifs
  · exact ⟨_, _, rfl, by omega⟩
  · exact ⟨_, _, rfl, by omega⟩
  · exact ⟨_, _, rfl, by omega⟩
  all_goals omega

/-- A first byte of four asks for a second one that makes no overlong form and no number beyond the
last character. -/
theorem leadByte?_four (b second : Nat) (h : 0xF0 ≤ b ∧ b ≤ 0xF4)
    (hsecond : 0x80 ≤ second ∧ second ≤ 0xBF) (hlong : b = 0xF0 → 0x90 ≤ second)
    (hlast : b = 0xF4 → second ≤ 0x8F) :
    ∃ low high, leadByte? b = some (3, low, high) ∧ low ≤ second ∧ second ≤ high := by
  rw [leadByte?, if_neg (by omega), if_neg (by omega), if_neg (by omega), if_neg (by omega)]
  split_ifs
  · exact ⟨_, _, rfl, by omega⟩
  · exact ⟨_, _, rfl, by omega⟩
  · exact ⟨_, _, rfl, by omega⟩
  · omega

theorem leadBits_one (b : Nat) : leadBits 1 b = b - 0xC0 := rfl

theorem leadBits_two (b : Nat) : leadBits 2 b = b - 0xE0 := rfl

theorem leadBits_three (b : Nat) : leadBits 3 b = b - 0xF0 := rfl

/-- Two bytes are read as the character that they are written for. -/
theorem decodeUtf8_two {n : Nat} (h : 0x80 ≤ n ∧ n < 0x800) (bytes : List Nat) :
    decodeUtf8 ((0xC0 + n / 0x40) :: (0x80 + n % 0x40) :: bytes)
      = Char.ofNat n :: decodeUtf8 bytes := by
  have hlead : leadByte? (0xC0 + n / 0x40) = some (1, 0x80, 0xBF) := leadByte?_two (by omega)
  apply decodeUtf8_lead (by omega) hlead
  have hlast : 0x80 ≤ 0x80 + n % 0x40 ∧ 0x80 + n % 0x40 ≤ 0xBF := by omega
  have hn : (0xC0 + n / 0x40 - 0xC0) * 0x40 + (0x80 + n % 0x40 - 0x80) = n := by omega
  rw [leadBits_one, takeContinuation_cons hlast, takeContinuation_zero, hn]

/-- Three bytes are read as the character that they are written for, which is no surrogate. -/
theorem decodeUtf8_three {n : Nat} (h : 0x800 ≤ n ∧ n < 0x10000) (hn : n < 0xD800 ∨ 0xDFFF < n)
    (bytes : List Nat) :
    decodeUtf8 ((0xE0 + n / 0x1000) :: (0x80 + n / 0x40 % 0x40) :: (0x80 + n % 0x40) :: bytes)
      = Char.ofNat n :: decodeUtf8 bytes := by
  obtain ⟨low, high, hlead, hsecond⟩ := leadByte?_three (0xE0 + n / 0x1000)
    (0x80 + n / 0x40 % 0x40) (by omega) (by omega) (by omega) (by omega)
  apply decodeUtf8_lead (by omega) hlead
  have hlast : 0x80 ≤ 0x80 + n % 0x40 ∧ 0x80 + n % 0x40 ≤ 0xBF := by omega
  have hn : ((0xE0 + n / 0x1000 - 0xE0) * 0x40 + (0x80 + n / 0x40 % 0x40 - 0x80)) * 0x40
      + (0x80 + n % 0x40 - 0x80) = n := by omega
  rw [leadBits_two, takeContinuation_cons hsecond, takeContinuation_cons hlast,
    takeContinuation_zero, hn]

/-- Four bytes are read as the character that they are written for. -/
theorem decodeUtf8_four {n : Nat} (h : 0x10000 ≤ n ∧ n < 0x110000) (bytes : List Nat) :
    decodeUtf8 ((0xF0 + n / 0x40000) :: (0x80 + n / 0x1000 % 0x40) :: (0x80 + n / 0x40 % 0x40)
        :: (0x80 + n % 0x40) :: bytes)
      = Char.ofNat n :: decodeUtf8 bytes := by
  obtain ⟨low, high, hlead, hsecond⟩ := leadByte?_four (0xF0 + n / 0x40000)
    (0x80 + n / 0x1000 % 0x40) (by omega) (by omega) (by omega) (by omega)
  apply decodeUtf8_lead (by omega) hlead
  have hthird : 0x80 ≤ 0x80 + n / 0x40 % 0x40 ∧ 0x80 + n / 0x40 % 0x40 ≤ 0xBF := by omega
  have hlast : 0x80 ≤ 0x80 + n % 0x40 ∧ 0x80 + n % 0x40 ≤ 0xBF := by omega
  have hn : (((0xF0 + n / 0x40000 - 0xF0) * 0x40 + (0x80 + n / 0x1000 % 0x40 - 0x80)) * 0x40
      + (0x80 + n / 0x40 % 0x40 - 0x80)) * 0x40 + (0x80 + n % 0x40 - 0x80) = n := by omega
  rw [leadBits_three, takeContinuation_cons hsecond, takeContinuation_cons hthird,
    takeContinuation_cons hlast, takeContinuation_zero, hn]

/-- **The bytes of a character are read as the character.** -/
theorem decodeUtf8_utf8Bytes (c : Char) (bytes : List Nat) :
    decodeUtf8 (utf8Bytes c ++ bytes) = c :: decodeUtf8 bytes := by
  have hbounds : c.toNat < 0xD800 ∨ (0xDFFF < c.toNat ∧ c.toNat < 0x110000) := c.valid
  have hchar := Char.ofNat_toNat c
  simp only [utf8Bytes]
  generalize c.toNat = n at hbounds hchar
  subst hchar
  split
  · rename_i hone
    exact decodeUtf8_ascii hone bytes
  · rename_i hone
    split
    · rename_i htwo
      exact decodeUtf8_two (by omega) bytes
    · rename_i htwo
      split
      · rename_i hthree
        exact decodeUtf8_three (by omega) (by omega) bytes
      · rename_i hthree
        exact decodeUtf8_four (by omega) bytes

/-! ## Decoding piece by piece -/

/-- A character that begins no escape is left as it is. -/
theorem percentDecode_cons {c : Char} (h : ¬ BeginsEscape (c :: rest)) :
    percentDecode (c :: rest) = c :: percentDecode rest := by
  rw [percentDecode, percentBytes_cons h, decodeUtf8_utf8Bytes, percentDecode]

/-- What is left of a text when bytes that continue a character are taken from it is a text, since
only bytes of escapes are taken. -/
theorem exists_left_takeContinuation (count low high acc : Nat) (text : List Char)
    (hlow : 0x80 ≤ low) (hhigh : high ≤ 0xBF) :
    ∃ left, (takeContinuation count low high acc (percentBytes text)).2.2 = percentBytes left ∧
      left.length ≤ text.length := by
  induction count generalizing low high acc text with
  | zero => exact ⟨text, rfl, Nat.le_refl _⟩
  | succ count ih =>
      cases text with
      | nil => exact ⟨[], rfl, Nat.le_refl _⟩
      | cons c rest =>
          by_cases hescape : BeginsEscape (c :: rest)
          · obtain ⟨a, b, more, heq, ha, hb⟩ := hescape
            cases heq
            obtain ⟨high', ha⟩ := Option.isSome_iff_exists.mp ha
            obtain ⟨low', hb⟩ := Option.isSome_iff_exists.mp hb
            by_cases hin : low ≤ 16 * high' + low' ∧ 16 * high' + low' ≤ high
            · rw [percentBytes_escape ha hb, takeContinuation_cons hin]
              obtain ⟨left, hleft, hle⟩ := ih _ _ _ more (Nat.le_refl _) (Nat.le_refl _)
              refine ⟨left, hleft, ?_⟩
              simp only [List.length_cons]
              omega
            · refine ⟨'%' :: a :: b :: more, ?_, Nat.le_refl _⟩
              rw [percentBytes_escape ha hb, takeContinuation, if_neg hin]
          · -- The first byte of a character is too low or too high to be taken.
            obtain ⟨first, others, hbytes, hfirst⟩ := exists_utf8Bytes c
            refine ⟨c :: rest, ?_, Nat.le_refl _⟩
            rw [percentBytes_cons hescape, hbytes, List.cons_append, takeContinuation,
              if_neg (by omega)]

/-- A byte becomes one character, with what it takes from the text after it. -/
theorem exists_left_decodeUtf8 (b : Nat) (text : List Char) :
    ∃ c left, decodeUtf8 (b :: percentBytes text) = c :: percentDecode left ∧
      left.length ≤ text.length := by
  by_cases hascii : b < 0x80
  · exact ⟨_, text, decodeUtf8_ascii hascii _, Nat.le_refl _⟩
  · rw [decodeUtf8, if_neg hascii]
    cases hlead : leadByte? b with
    | none => exact ⟨_, text, rfl, Nat.le_refl _⟩
    | some found =>
        obtain ⟨count, low, high⟩ := found
        obtain ⟨hlow, hhigh⟩ := leadByte?_bounds hlead
        obtain ⟨left, hleft, hle⟩ :=
          exists_left_takeContinuation count low high (leadBits count b) text hlow hhigh
        simp only [hleft]
        split
        · exact ⟨_, left, rfl, hle⟩
        · exact ⟨_, left, rfl, hle⟩

/-- An escape becomes one character, with what it takes from the text after it. -/
theorem exists_left_percentDecode {text : List Char} (h : BeginsEscape text) :
    ∃ c left, percentDecode text = c :: percentDecode left ∧ left.length + 3 ≤ text.length := by
  obtain ⟨a, b, rest, rfl, ha, hb⟩ := h
  obtain ⟨high, ha⟩ := Option.isSome_iff_exists.mp ha
  obtain ⟨low, hb⟩ := Option.isSome_iff_exists.mp hb
  obtain ⟨c, left, hleft, hle⟩ := exists_left_decodeUtf8 (16 * high + low) rest
  refine ⟨c, left, ?_, ?_⟩
  · rw [percentDecode, percentBytes_escape ha hb, hleft]
  · simp only [List.length_cons]
    omega

/-- Percent decoding makes no text longer. -/
theorem length_percentDecode_le (text : List Char) :
    (percentDecode text).length ≤ text.length := by
  induction hlength : text.length using Nat.strongRecOn generalizing text with
  | ind n ih =>
      subst hlength
      cases text with
      | nil => simp [percentDecode, percentBytes, decodeUtf8]
      | cons c rest =>
          by_cases hescape : BeginsEscape (c :: rest)
          · obtain ⟨d, left, heq, hle⟩ := exists_left_percentDecode hescape
            have hrest := ih left.length (by omega) left rfl
            rw [heq, List.length_cons]
            omega
          · have hrest := ih rest.length (by simp) rest rfl
            rw [percentDecode_cons hescape, List.length_cons, List.length_cons]
            omega

/-- An escape makes a text shorter. -/
theorem length_percentDecode_lt {text : List Char} (h : HasEscape text) :
    (percentDecode text).length < text.length := by
  induction text with
  | nil => exact absurd h not_hasEscape_nil
  | cons c rest ih =>
      by_cases hescape : BeginsEscape (c :: rest)
      · obtain ⟨d, left, heq, hle⟩ := exists_left_percentDecode hescape
        have hrest := length_percentDecode_le left
        rw [heq, List.length_cons]
        omega
      · rw [hasEscape_cons_iff, or_iff_right hescape] at h
        rw [percentDecode_cons hescape, List.length_cons, List.length_cons]
        exact Nat.succ_lt_succ (ih h)

/-- **Percent decoding leaves a text as it is exactly if there is no escape in it.** -/
theorem percentDecode_eq_self_iff {text : List Char} :
    percentDecode text = text ↔ ¬ HasEscape text := by
  constructor
  · intro heq h
    have hlt := length_percentDecode_lt h
    rw [heq] at hlt
    exact Nat.lt_irrefl _ hlt
  · intro h
    induction text with
    | nil => simp [percentDecode, percentBytes, decodeUtf8]
    | cons c rest ih =>
        rw [hasEscape_cons_iff, not_or] at h
        rw [percentDecode_cons h.1, ih h.2]

theorem percentDecode_eq_nil_iff {text : List Char} : percentDecode text = [] ↔ text = [] := by
  constructor
  · intro h
    cases text with
    | nil => rfl
    | cons c rest =>
        by_cases hescape : BeginsEscape (c :: rest)
        · obtain ⟨d, left, heq, -⟩ := exists_left_percentDecode hescape
          rw [heq] at h
          cases h
        · rw [percentDecode_cons hescape] at h
          cases h
  · rintro rfl
    simp [percentDecode, percentBytes, decodeUtf8]

end ApiTypes.Text
