/-!
# Tokens of a document

The tokens that a document is written in. Where blocks begin and end is not written but follows
from the indentation; it has tokens of its own, so that the grammar over tokens needs no columns.
-/

set_option autoImplicit false

namespace ApiTypes.Yaml

/-- A token of a document. -/
inductive Token where
  | blockListStart
  | blockMapStart
  | blockEnd
  | flowListStart
  | flowListEnd
  | flowMapStart
  | flowMapEnd
  /-- The dash before an item of a block list. -/
  | blockItem
  /-- The comma of a flow collection. -/
  | flowItem
  /-- What follows is a key. -/
  | key
  /-- What follows is the value of a key. -/
  | value
  | aliasName (name : String)
  | anchor (name : String)
  /-- A tag as a handle and what follows the handle. -/
  | tag (handle suffix : String)
  /-- A scalar, and whether it was written without quotes and block marks. -/
  | scalar (text : String) (plain : Bool)
  | documentStart
  | documentEnd
  | versionDirective (major minor : Nat)
  | tagDirective (handle lead : String)
  deriving DecidableEq

end ApiTypes.Yaml
