import ApiTypes.Text.Printable

/-!
# Quoted text

Two written forms of a text between double quotes. `literal` is the form of annotation arguments:
a backslash stands before every backslash and every double quote, and nothing else changes.
`shown` is the form of messages: control characters and characters that print nothing are written
by name or by code point as well.
-/

set_option autoImplicit false

namespace ApiTypes.Text

/-- The double quote. -/
def quoteMark : Char := '\x22'

/-- The backslash. -/
def escapeMark : Char := '\x5c'

/-- Puts a backslash before every backslash and every double quote. -/
def escapeLiteral : List Char → List Char
  | [] => []
  | c :: rest =>
      if c = escapeMark ∨ c = quoteMark then escapeMark :: c :: escapeLiteral rest
      else c :: escapeLiteral rest

/-- Reads left to right, a backslash and the character after it as that character; refuses a
backslash at the end and a double quote that stands alone. -/
def unescapeLiteral : List Char → Option (List Char)
  | [] => some []
  | c :: rest =>
      if c = escapeMark then
        match rest with
        | [] => none
        | d :: more => (unescapeLiteral more).map (d :: ·)
      else if c = quoteMark then none
      else (unescapeLiteral rest).map (c :: ·)

/-- A text as a string literal. -/
def literal (text : String) : String :=
  String.ofList (quoteMark :: (escapeLiteral text.toList ++ [quoteMark]))

/-- Reading undoes escaping. -/
theorem unescapeLiteral_escapeLiteral (text : List Char) :
    unescapeLiteral (escapeLiteral text) = some text := by
  induction text with
  | nil => rfl
  | cons c rest ih =>
      by_cases h : c = escapeMark ∨ c = quoteMark
      · simp [escapeLiteral, h, unescapeLiteral, ih]
      · have h' := not_or.mp h
        rw [escapeLiteral, if_neg h, unescapeLiteral.eq_def]
        simp [h', ih]

/-- The lower case hexadecimal digits of a number. -/
def hexDigits (n : Nat) : List Char :=
  Nat.toDigits 16 n

/-- How one character is shown between double quotes. -/
def shownChar (c : Char) : List Char :=
  if c = quoteMark then [escapeMark, quoteMark]
  else if c = escapeMark then [escapeMark, escapeMark]
  else if c = '\n' then [escapeMark, 'n']
  else if c = '\t' then [escapeMark, 't']
  else if c = '\r' then [escapeMark, 'r']
  else if c.toNat = 0 then [escapeMark, '0']
  else if isPrintable c then [c]
  else escapeMark :: 'u' :: '\x7b' :: (hexDigits c.toNat ++ ['\x7d'])

/-- A text as messages show it. -/
def shown (text : String) : String :=
  String.ofList (quoteMark :: (text.toList.flatMap shownChar ++ [quoteMark]))

end ApiTypes.Text
