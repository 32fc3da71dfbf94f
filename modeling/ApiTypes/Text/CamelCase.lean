import ApiTypes.Text.Letter

/-!
# Upper camel case

An identifier is made from free text in two steps. The text is cut into words: at every character
that is neither letter nor number, between a lower case and an upper case character, and before
the last of several upper case characters when a lower case one follows it. Then every word is
capitalised and the words are joined.
-/

set_option autoImplicit false

namespace ApiTypes.Text

/-- The case of the last cased character of the word under the cursor. -/
inductive WordCase where
  /-- No cased character yet. -/
  | uncased
  | lower
  | upper
  deriving DecidableEq

/-- The case of a word after one more character. -/
def WordCase.after (mode : WordCase) (c : Char) : WordCase :=
  if isLowercase c then .lower else if isUppercase c then .upper else mode

/--
Cuts a text into words. `word` holds the characters of the current word, last one first, and
`mode` their case.
-/
def cutWords (word : List Char) (mode : WordCase) : List Char → List (List Char)
  | [] => if word.isEmpty then [] else [word.reverse]
  | c :: rest =>
      if !isAlphanumeric c then
        let others := cutWords [] .uncased rest
        if word.isEmpty then others else word.reverse :: others
      else
        match rest with
        | [] => [(c :: word).reverse]
        | next :: _ =>
            if !isAlphanumeric next then cutWords (c :: word) mode rest
            -- A word ends before an upper case character after a lower case one,
            else if mode.after c = .lower && isUppercase next then
              (c :: word).reverse :: cutWords [] .uncased rest
            -- and before the last of several upper case ones if a lower case one follows.
            else if mode = .upper && isUppercase c && isLowercase next then
              word.reverse :: cutWords [c] .uncased rest
            else cutWords (c :: word) (mode.after c) rest

/-- The words of a text. -/
def words (text : List Char) : List (List Char) :=
  cutWords [] .uncased text

/-- Lower case, with the final form of a sigma at the end of the word. -/
def lowerWord : List Char → List Char
  | [] => []
  | [c] => if c.toNat == 0x3A3 then [Char.ofNat 0x3C2] else lowerCase c
  | c :: rest => lowerCase c ++ lowerWord rest

/-- Upper case for the first character and lower case for the others. -/
def capitalise : List Char → List Char
  | [] => []
  | c :: rest => upperCase c ++ lowerWord rest

/-- The upper camel case form of a text. -/
def upperCamel (text : String) : String :=
  String.ofList ((words text.toList).flatMap capitalise)

end ApiTypes.Text
