import ApiTypes.Text.Percent
import ApiTypes.Text.Quoted

/-!
# Pointers into a document

A node of a document is named by a pointer: the names on the way to it, each after a slash. A name
that holds a slash or a tilde is escaped, and percent escapes are read as well as tildes. The
pointer of a schema node is its `SchemaKey`.
-/

set_option autoImplicit false

namespace ApiTypes

namespace Pointer

/-- Escapes a name: a tilde becomes `~0` and a slash `~1`. -/
def escape : List Char → List Char
  | [] => []
  | '~' :: rest => '~' :: '0' :: escape rest
  | '/' :: rest => '~' :: '1' :: escape rest
  | c :: rest => c :: escape rest

/-- Undoes `escape`; a tilde without a zero or a one after it stands for itself. -/
def unescape : List Char → List Char
  | [] => []
  | '~' :: '1' :: rest => '/' :: unescape rest
  | '~' :: '0' :: rest => '~' :: unescape rest
  | c :: rest => c :: unescape rest

/-- The name that a segment of a pointer stands for. -/
def decode (segment : List Char) : List Char :=
  Text.percentDecode (unescape segment)

/-- Cuts a text at its slashes. -/
def splitSlash : List Char → List (List Char)
  | [] => [[]]
  | '/' :: rest => [] :: splitSlash rest
  | c :: rest =>
      match splitSlash rest with
      | [] => [[c]]
      | segment :: segments => (c :: segment) :: segments

/-- `escape` on texts. -/
def escapeSegment (name : String) : String :=
  String.ofList (escape name.toList)

/-- `decode` on texts. -/
def decodeSegment (segment : String) : String :=
  String.ofList (decode segment.toList)

/-- The name that the last segment of a pointer stands for. -/
def lastSegment (pointer : String) : String :=
  String.ofList (decode ((splitSlash pointer.toList).getLastD []))

/-- The name of the component that a reference points to, if it points into the given section of
the components of the same document. -/
def componentName? (reference section_ : String) : Option String :=
  match reference.toList with
  | '#' :: '/' :: pointer =>
      match splitSlash pointer with
      | [components, place, name] =>
          if String.ofList components = "components" ∧ String.ofList place = section_ then
            let decoded := decode name
            if decoded.isEmpty then none else some (String.ofList decoded)
          else none
      | _ => none
  | _ => none

/-- Reading an escaped name gives the name back. -/
theorem unescape_escape (name : List Char) : unescape (escape name) = name := by
  induction name with
  | nil => rfl
  | cons c rest ih =>
      unfold escape
      split
      · contradiction
      · rename_i h
        cases h
        simp [unescape, ih]
      · rename_i h
        cases h
        simp [unescape, ih]
      · rename_i d more hne htilde hslash heq
        cases heq
        unfold unescape
        split <;> simp_all

/-- An escaped name holds no slash. -/
theorem slash_notMem_escape (name : List Char) : '/' ∉ escape name := by
  induction name with
  | nil => simp [escape]
  | cons c rest ih =>
      unfold escape
      split
      · simp
      · simp_all
      · simp_all
      · rename_i htilde hslash heq
        cases heq
        have h : ¬ '/' = c := fun e => hslash e.symm
        simp [h, ih]

end Pointer

/-- The identity of a schema node: its pointer in the document. -/
structure SchemaKey where
  /-- The pointer as it is written. -/
  text : String
  deriving DecidableEq

namespace SchemaKey

instance : Inhabited SchemaKey := ⟨⟨""⟩⟩

/-- The key of a component schema. -/
def component (name : String) : SchemaKey :=
  ⟨"#/components/schemas/" ++ Pointer.escapeSegment name⟩

/-- The key of a node below another one. -/
def child (key : SchemaKey) (name : String) : SchemaKey :=
  ⟨key.text ++ "/" ++ Pointer.escapeSegment name⟩

/-- The key of an item of a list below a node. -/
def item (key : SchemaKey) (index : Nat) : SchemaKey :=
  key.child (toString index)

/-- A key as messages for developers show it. -/
def shown (key : SchemaKey) : String :=
  "SchemaKey(" ++ Text.shown key.text ++ ")"

end SchemaKey

end ApiTypes
