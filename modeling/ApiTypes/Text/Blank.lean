/-!
# Blank characters

The blank characters are those with the Unicode property `White_Space`. Trimming removes them from
the ends of a text and leaves the inside alone: `trim_of_isBlank` and `trimStart_cons` state where
it stops.
-/

set_option autoImplicit false

namespace ApiTypes.Text

/-- The characters with the property `White_Space`. -/
def isBlank (c : Char) : Bool :=
  let n := c.toNat
  (9 ≤ n && n ≤ 13) || n == 0x20 || n == 0x85 || n == 0xA0 || n == 0x1680
    || (0x2000 ≤ n && n ≤ 0x200A) || n == 0x2028 || n == 0x2029 || n == 0x202F
    || n == 0x205F || n == 0x3000

/-- Drops the blanks before the first character that is none. -/
def trimStart (text : List Char) : List Char :=
  text.dropWhile isBlank

/-- Drops the blanks after the last character that is none. -/
def trimEnd (text : List Char) : List Char :=
  (text.reverse.dropWhile isBlank).reverse

/-- Drops the blanks at both ends. -/
def trim (text : List Char) : List Char :=
  trimEnd (trimStart text)

/-- `trim` on texts. -/
def trimmed (text : String) : String :=
  String.ofList (trim text.toList)

@[simp] theorem trimStart_nil : trimStart [] = [] := rfl

theorem trimStart_cons (c : Char) (rest : List Char) :
    trimStart (c :: rest) = if isBlank c then trimStart rest else c :: rest := by
  simp [trimStart, List.dropWhile_cons]

theorem trimStart_of_isBlank {blanks : List Char} (h : ∀ c ∈ blanks, isBlank c = true)
    (rest : List Char) : trimStart (blanks ++ rest) = trimStart rest := by
  induction blanks with
  | nil => rfl
  | cons c cs ih =>
      have hc : isBlank c = true := h c (by simp)
      have hcs : ∀ d ∈ cs, isBlank d = true := fun d hd => h d (by simp [hd])
      simp [trimStart_cons, hc, ih hcs]

/-- What is left after trimming the start is no longer than the text. -/
theorem length_trimStart_le (text : List Char) : (trimStart text).length ≤ text.length := by
  induction text with
  | nil => simp
  | cons c cs ih =>
      rw [trimStart_cons]
      split
      · exact Nat.le_succ_of_le ih
      · exact Nat.le_refl _

/-- A text of blanks alone trims to nothing. -/
theorem trim_of_isBlank {text : List Char} (h : ∀ c ∈ text, isBlank c = true) :
    trim text = [] := by
  have hs : trimStart text = [] := by
    have := trimStart_of_isBlank h []
    simpa using this
  simp [trim, hs, trimEnd]

end ApiTypes.Text
