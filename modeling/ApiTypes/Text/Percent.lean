/-!
# Percent decoding

A percent sign and two hexadecimal digits stand for one byte; a percent sign that is not followed
by two digits stands for itself. The bytes are then read as UTF-8, where every maximal run that
starts a character but does not finish it, and every byte that starts none, becomes one
replacement character.
-/

set_option autoImplicit false

namespace ApiTypes.Text

/-- The value of a hexadecimal digit. -/
def hexValue? (c : Char) : Option Nat :=
  if c.isDigit then some (c.toNat - '0'.toNat)
  else if 'a' ≤ c ∧ c ≤ 'f' then some (c.toNat - 'a'.toNat + 10)
  else if 'A' ≤ c ∧ c ≤ 'F' then some (c.toNat - 'A'.toNat + 10)
  else none

/-- The bytes of a character in UTF-8. -/
def utf8Bytes (c : Char) : List Nat :=
  let n := c.toNat
  if n < 0x80 then [n]
  else if n < 0x800 then [0xC0 + n / 0x40, 0x80 + n % 0x40]
  else if n < 0x10000 then [0xE0 + n / 0x1000, 0x80 + n / 0x40 % 0x40, 0x80 + n % 0x40]
  else [0xF0 + n / 0x40000, 0x80 + n / 0x1000 % 0x40, 0x80 + n / 0x40 % 0x40, 0x80 + n % 0x40]

/-- The bytes that a text with percent escapes stands for. -/
def percentBytes : List Char → List Nat
  | [] => []
  | '%' :: a :: b :: rest =>
      match hexValue? a, hexValue? b with
      | some high, some low => (16 * high + low) :: percentBytes rest
      | _, _ => '%'.toNat :: percentBytes (a :: b :: rest)
  | c :: rest => utf8Bytes c ++ percentBytes rest

/-- The character that stands for bytes that are no UTF-8. -/
def replacement : Char := Char.ofNat 0xFFFD

/-- What a first byte asks for: the number of bytes that continue it, and the bounds of the first
of them. -/
def leadByte? (b : Nat) : Option (Nat × Nat × Nat) :=
  if 0xC2 ≤ b ∧ b ≤ 0xDF then some (1, 0x80, 0xBF)
  else if b = 0xE0 then some (2, 0xA0, 0xBF)
  else if b = 0xED then some (2, 0x80, 0x9F)
  else if 0xE1 ≤ b ∧ b ≤ 0xEF then some (2, 0x80, 0xBF)
  else if b = 0xF0 then some (3, 0x90, 0xBF)
  else if 0xF1 ≤ b ∧ b ≤ 0xF3 then some (3, 0x80, 0xBF)
  else if b = 0xF4 then some (3, 0x80, 0x8F)
  else none

/-- The bits that a first byte contributes when `count` bytes continue it. -/
def leadBits (count b : Nat) : Nat :=
  match count with
  | 1 => b - 0xC0
  | 2 => b - 0xE0
  | _ => b - 0xF0

/-- Takes up to `count` continuation bytes, the first of them between `low` and `high`, onto the
bits `acc`; tells the bits, how many bytes were missing, and the rest. -/
def takeContinuation : Nat → Nat → Nat → Nat → List Nat → Nat × Nat × List Nat
  | 0, _, _, acc, rest => (acc, 0, rest)
  | count + 1, _, _, acc, [] => (acc, count + 1, [])
  | count + 1, low, high, acc, b :: rest =>
      if low ≤ b ∧ b ≤ high then takeContinuation count 0x80 0xBF (acc * 0x40 + (b - 0x80)) rest
      else (acc, count + 1, b :: rest)

theorem length_takeContinuation_le (count low high acc : Nat) (bytes : List Nat) :
    (takeContinuation count low high acc bytes).2.2.length ≤ bytes.length := by
  induction count generalizing low high acc bytes with
  | zero => simp [takeContinuation]
  | succ count ih =>
      cases bytes with
      | nil => simp [takeContinuation]
      | cons b rest =>
          simp only [takeContinuation]
          split
          · exact Nat.le_succ_of_le (ih _ _ _ _)
          · exact Nat.le_refl _

/-- Reads bytes as UTF-8 and puts a replacement character where they are none. -/
def decodeUtf8 (bytes : List Nat) : List Char :=
  match bytes with
  | [] => []
  | b :: rest =>
      if b < 0x80 then Char.ofNat b :: decodeUtf8 rest
      else
        match leadByte? b with
        | none => replacement :: decodeUtf8 rest
        | some (count, low, high) =>
            let taken := takeContinuation count low high (leadBits count b) rest
            have : taken.2.2.length < rest.length + 1 :=
              Nat.lt_succ_of_le (length_takeContinuation_le _ _ _ _ _)
            if taken.2.1 = 0 then Char.ofNat taken.1 :: decodeUtf8 taken.2.2
            else replacement :: decodeUtf8 taken.2.2
termination_by bytes.length
decreasing_by
  · exact Nat.lt_succ_self _
  · exact Nat.lt_succ_self _
  · exact this
  · exact this

/-- The text that a text with percent escapes stands for. -/
def percentDecode (text : List Char) : List Char :=
  decodeUtf8 (percentBytes text)

end ApiTypes.Text
