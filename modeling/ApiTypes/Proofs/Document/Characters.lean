import ApiTypes.Document.Yaml.Node

/-!
# Reading characters

A text is read from its characters. Where these are at hand, as they are for a literal or for
literals one after the other (`Text.append_eq_ofList`), the value of the document can be computed
from them (`Yaml.read?_ofList`), and the text need not be decoded first.
-/

set_option autoImplicit false

namespace ApiTypes

/-- Two texts together have the characters of both. -/
theorem Text.append_eq_ofList {s t : String} {cs ds : List Char} (hs : s = String.ofList cs)
    (ht : t = String.ofList ds) : s ++ t = String.ofList (cs ++ ds) := by
  rw [hs, ht, String.ofList_append]

namespace Yaml

/-- The value of the document that some characters are, if they are one. -/
def readChars? (cs : List Char) : Option Value := do
  let tokens ← Token.scan? cs
  if tokens.isEmpty then return .null
  let node ← Node.ofTokens? tokens
  let reached := node.extent
  if reached.depth ≤ maxDepth && reached.jumps ≤ maxJumps * node.events then node.value?
  else none

theorem read?_eq_readChars? (text : String) : read? text = readChars? text.toList := rfl

/-- **A text is read from its characters.** -/
theorem read?_ofList {text : String} {cs : List Char} (h : text = String.ofList cs) :
    read? text = readChars? cs := by
  rw [read?_eq_readChars?, h, String.toList_ofList]

end Yaml

end ApiTypes
