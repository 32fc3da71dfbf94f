import ApiTypes.Document.Yaml.Layout
import ApiTypes.Document.Yaml.Plain

/-!
# Nodes of a document

The grammar over tokens and the value of a document. A node is a scalar, a list or a map with its
tag, or an alias together with the node that it stands for. A document is refused when it nests
more than 128 levels deep, when it follows aliases more than a hundred times for each of its
events, when it holds a tag of its own, or when a key is no scalar. Few aliases can stand for a
very large value, so how far a node reaches is noted where its anchor ends and is not counted again
at every alias.
-/

set_option autoImplicit false

namespace ApiTypes.Yaml

/-- How far a node reaches, aliases followed. -/
structure Extent where
  /-- The number of lists and maps nested in each other. -/
  depth : Nat := 0
  /-- The number of times that reading the whole node follows an alias. -/
  jumps : Nat := 0
  deriving DecidableEq

namespace Extent

/-- The extent of two nodes beside each other. -/
def beside (a b : Extent) : Extent := ⟨max a.depth b.depth, a.jumps + b.jumps⟩

/-- The extent of a list or map whose contents reach so far. -/
def nested (e : Extent) : Extent := { e with depth := e.depth + 1 }

end Extent

/-- A node of a document. -/
inductive Node where
  | scalar (text : String) (plain : Bool) (tag : Option String)
  | list (items : List Node) (tag : Option String)
  | map (members : List (Node × Node)) (tag : Option String)
  /-- An alias, with the node that it stands for and the extent of that node. -/
  | aliasOf (target : Node) (extent : Extent)

namespace Node

/-- The scalar that is not written at all. -/
def absent : Node := scalar "" true none

instance : Inhabited Node := ⟨absent⟩

mutual

/-- How far a node reaches. -/
def extent : Node → Extent
  | scalar _ _ _ => {}
  | list items _ => (extentItems items).nested
  | map members _ => (extentMembers members).nested
  | aliasOf _ reached => { reached with jumps := reached.jumps + 1 }

/-- How far the items of a list reach. -/
def extentItems : List Node → Extent
  | [] => {}
  | item :: rest => (extent item).beside (extentItems rest)

/-- How far the members of a map reach. -/
def extentMembers : List (Node × Node) → Extent
  | [] => {}
  | (key, value) :: rest => ((extent key).beside (extent value)).beside (extentMembers rest)

end

mutual

/-- The number of events that a node is written in: one for a scalar or an alias, two for the ends
of a list or map besides those of its contents. -/
def events : Node → Nat
  | scalar _ _ _ => 1
  | list items _ => eventsItems items + 2
  | map members _ => eventsMembers members + 2
  | aliasOf _ _ => 1

/-- The number of events that the items of a list are written in. -/
def eventsItems : List Node → Nat
  | [] => 0
  | item :: rest => events item + eventsItems rest

/-- The number of events that the members of a map are written in. -/
def eventsMembers : List (Node × Node) → Nat
  | [] => 0
  | (key, value) :: rest => events key + events value + eventsMembers rest

end

end Node

/-- The state of reading nodes from tokens. -/
structure Reader where
  /-- The tokens that are left. -/
  tokens : List Token
  /-- The anchors, each with its number; the last one of a name comes first. -/
  anchors : List (String × Nat) := []
  /-- The nodes of the anchors that are complete, with their extents. -/
  anchored : List (Nat × Node × Extent) := []
  /-- The handles of tags and what they stand for. -/
  handles : List (String × String) := [("!", "!"), ("!!", "tag:yaml.org,2002:")]

namespace Reader

/-- The next token. -/
def peek? (r : Reader) : Option Token := r.tokens.head?

/-- Whether one of the given tokens comes next. -/
def sees (r : Reader) (ts : List Token) : Bool := r.peek?.any fun t => ts.contains t

/-- Steps over one token. -/
def skip (r : Reader) : Reader := { r with tokens := r.tokens.tail }

/-- Steps over a token if it comes next. -/
def eat? (r : Reader) (t : Token) : Option Reader :=
  if r.peek? == some t then some r.skip else none

/-- The alias of a name, whose anchor must be complete. -/
def alias? (r : Reader) (name : String) : Option Node := do
  let number ← r.anchors.lookup name
  let (target, extent) ← r.anchored.lookup number
  return .aliasOf target extent

/-- The tag that a handle and the text after it stand for. -/
def tag? (r : Reader) (handle suffix : String) : Option String :=
  if handle.isEmpty then some suffix
  else (r.handles.lookup handle).map (· ++ suffix)

/-- Reads the anchor and the tag before a node, in either order. -/
def properties? (r : Reader) : Option (Option String × Option String × Reader) :=
  match r.peek? with
  | some (.anchor name) =>
      match r.skip.peek? with
      | some (.tag handle suffix) => do
          return (some name, some (← r.tag? handle suffix), r.skip.skip)
      | _ => some (some name, none, r.skip)
  | some (.tag handle suffix) => do
      let tag ← r.tag? handle suffix
      match r.skip.peek? with
      | some (.anchor name) => return (some name, some tag, r.skip.skip)
      | _ => return (none, some tag, r.skip)
  | _ => some (none, none, r)

/-- Opens the anchor of a node that is about to be read. -/
def openAnchor (r : Reader) (name : Option String) : Reader :=
  match name with
  | some name => { r with anchors := (name, r.anchors.length) :: r.anchors }
  | none => r

/-- Completes the anchor with the given number. -/
def closeAnchor (r : Reader) (name : Option String) (number : Nat) (node : Node) : Reader :=
  match name with
  | some _ => { r with anchored := (number, node, node.extent) :: r.anchored }
  | none => r

end Reader

mutual

/-- Reads a node. `block` tells whether a block may stand here, `flat` whether a list may stand at
the column of the key before it. -/
def node? (block flat : Bool) : Nat → Reader → Option (Node × Reader)
  | 0, _ => none
  | budget + 1, r =>
      match r.peek? with
      | some (.aliasName name) => (r.alias? name).map fun node => (node, r.skip)
      | _ =>
          match r.properties? with
          | none => none
          | some (anchor, tag, start) =>
              let number := start.anchors.length
              match content? block flat anchor.isSome tag budget (start.openAnchor anchor) with
              | none => none
              | some (node, rest) => some (node, rest.closeAnchor anchor number node)

/-- Reads a node after its anchor and tag. -/
def content? (block flat anchored : Bool) (tag : Option String) :
    Nat → Reader → Option (Node × Reader)
  | 0, _ => none
  | budget + 1, r =>
      match r.peek? with
      | some (.scalar text plain) =>
          -- An exclamation mark alone says nothing about a scalar.
          some (.scalar text plain (if tag == some "!" then none else tag), r.skip)
      | some .flowListStart =>
          (flowItems? true budget r.skip).map fun (items, rest) => (.list items tag, rest)
      | some .flowMapStart =>
          (flowMembers? true budget r.skip).map fun (members, rest) => (.map members tag, rest)
      | next =>
          if flat && next == some .blockItem then
            (flatItems? budget r).map fun (items, rest) => (.list items tag, rest)
          else if block && next == some .blockListStart then
            (blockItems? budget r.skip).map fun (items, rest) => (.list items tag, rest)
          else if block && next == some .blockMapStart then
            (blockMembers? budget r.skip).map fun (members, rest) => (.map members tag, rest)
          else if anchored || tag.isSome then some (.scalar "" true tag, r)
          else none

/-- Reads the items of a block list up to its end. -/
def blockItems? : Nat → Reader → Option (List Node × Reader)
  | 0, _ => none
  | budget + 1, r =>
      match r.peek? with
      | some .blockItem =>
          let item :=
            if r.skip.sees [.blockItem, .blockEnd] then some (Node.absent, r.skip)
            else node? true false budget r.skip
          match item with
          | none => none
          | some (node, rest) =>
              (blockItems? budget rest).map fun (items, last) => (node :: items, last)
      | some .blockEnd => some ([], r.skip)
      | _ => none

/-- Reads the items of a list at the column of the key before it. -/
def flatItems? : Nat → Reader → Option (List Node × Reader)
  | 0, _ => none
  | budget + 1, r =>
      match r.peek? with
      | some .blockItem =>
          let item :=
            if r.skip.sees [.blockItem, .key, .value, .blockEnd] then some (Node.absent, r.skip)
            else node? true false budget r.skip
          match item with
          | none => none
          | some (node, rest) =>
              (flatItems? budget rest).map fun (items, last) => (node :: items, last)
      | _ => some ([], r)

/-- Reads the members of a block map up to its end. -/
def blockMembers? : Nat → Reader → Option (List (Node × Node) × Reader)
  | 0, _ => none
  | budget + 1, r =>
      match r.peek? with
      | some .key =>
          let key :=
            if r.skip.sees [.key, .value, .blockEnd] then some (Node.absent, r.skip)
            else node? true true budget r.skip
          match key with
          | none => none
          | some (key, afterKey) =>
              let value :=
                match afterKey.eat? .value with
                | none => some (Node.absent, afterKey)
                | some start =>
                    if start.sees [.key, .value, .blockEnd] then some (Node.absent, start)
                    else node? true true budget start
              match value with
              | none => none
              | some (value, rest) =>
                  (blockMembers? budget rest).map fun (members, last) =>
                    ((key, value) :: members, last)
      | some .blockEnd => some ([], r.skip)
      | _ => none

/-- Reads the items of a flow list up to its end. An item with a key mark is a map of one
member. -/
def flowItems? (first : Bool) : Nat → Reader → Option (List Node × Reader)
  | 0, _ => none
  | budget + 1, r =>
      if r.peek? == some .flowListEnd then some ([], r.skip)
      else
        match (if first then some r else r.eat? .flowItem) with
        | none => none
        | some start =>
            if start.peek? == some .flowListEnd then some ([], start.skip)
            else
              let item :=
                if start.peek? == some .key then flowPair? budget start.skip
                else node? false false budget start
              match item with
              | none => none
              | some (node, rest) =>
                  (flowItems? false budget rest).map fun (items, last) => (node :: items, last)

/-- Reads the key and the value of a map of one member inside a flow list. -/
def flowPair? : Nat → Reader → Option (Node × Reader)
  | 0, _ => none
  | budget + 1, r =>
      let key :=
        -- The token that shows that the key is missing counts as its end, whichever it is.
        if r.sees [.value, .flowItem, .flowListEnd] then some (Node.absent, r.skip)
        else node? false false budget r
      match key with
      | none => none
      | some (key, afterKey) =>
          match afterKey.eat? .value with
          | none => some (.map [(key, Node.absent)] none, afterKey)
          | some start =>
              if start.sees [.flowItem, .flowListEnd] then
                some (.map [(key, Node.absent)] none, start)
              else
                (node? false false budget start).map fun (value, rest) =>
                  (.map [(key, value)] none, rest)

/-- Reads the members of a flow map up to its end. -/
def flowMembers? (first : Bool) : Nat → Reader → Option (List (Node × Node) × Reader)
  | 0, _ => none
  | budget + 1, r =>
      if r.peek? == some .flowMapEnd then some ([], r.skip)
      else
        match (if first then some r else r.eat? .flowItem) with
        | none => none
        | some start =>
            if start.peek? == some .flowMapEnd then some ([], start.skip)
            else
              match flowMember? budget start with
              | none => none
              | some (member, rest) =>
                  (flowMembers? false budget rest).map fun (members, last) =>
                    (member :: members, last)

/-- Reads one member of a flow map. A node without a key mark is a key without a value. -/
def flowMember? : Nat → Reader → Option ((Node × Node) × Reader)
  | 0, _ => none
  | budget + 1, r =>
      match r.eat? .key with
      | none => (node? false false budget r).map fun (key, rest) => ((key, Node.absent), rest)
      | some start =>
          let key :=
            if start.sees [.value, .flowItem, .flowMapEnd] then some (Node.absent, start)
            else node? false false budget start
          match key with
          | none => none
          | some (key, afterKey) =>
              match afterKey.eat? .value with
              | none => some ((key, Node.absent), afterKey)
              | some after =>
                  if after.sees [.flowItem, .flowMapEnd] then some ((key, Node.absent), after)
                  else
                    (node? false false budget after).map fun (value, rest) =>
                      ((key, value), rest)

end

/-- Reads the directives before a document. A directive given twice, and a version other than 1.1
and 1.2, are refused. -/
def directives? (versioned : Bool) (given : List String) :
    List Token → Option (List (String × String) × List Token)
  | .versionDirective major minor :: rest =>
      if versioned || major != 1 || !(minor == 1 || minor == 2) then none
      else directives? true given rest
  | .tagDirective handle lead :: rest =>
      if given.contains handle then none
      else (directives? versioned (handle :: given) rest).map fun (handles, last) =>
        ((handle, lead) :: handles, last)
  | tokens => some ([], tokens)

/-- Whether a token can only stand between documents. -/
def Token.isOutside : Token → Bool
  | .versionDirective _ _ => true
  | .tagDirective _ _ => true
  | .documentStart => true
  | .documentEnd => true
  | _ => false

/-- Reads the only document from tokens; nothing for more than one. -/
def Node.ofTokens? (tokens : List Token) : Option Node := do
  let budget := 4 * tokens.length + 8
  let (handles, start) ← directives? false [] tokens
  let explicit := start.head? == some .documentStart
  if start.length != tokens.length && !explicit then none
  else
    let r : Reader := { tokens := if explicit then start.tail else start }
    let r := { r with handles := handles ++ r.handles }
    let (node, rest) ←
      if explicit && r.tokens.head?.all Token.isOutside then some (Node.absent, r)
      else node? true false budget r
    if rest.tokens.all (· == .documentEnd) then return node else none

namespace Node

/-- Whether a tag is a document's own, which no value has. -/
def isOwnTag (tag : Option String) : Bool :=
  tag.any fun t => t.toList.head? == some '!'

/-- The value of a scalar. -/
def scalarValue? (text : String) (plain : Bool) (tag : Option String) : Option Value :=
  match tag with
  | none => if plain then plainValue? text else some (.str text)
  | some "tag:yaml.org,2002:bool" => (bool? text).map .bool
  | some "tag:yaml.org,2002:int" => (integer? text.toList).bind integerValue?
  | some "tag:yaml.org,2002:float" =>
      if isNotFinite text then some .null else (real? text.toList).map fun x => .num (.real x)
  | some "tag:yaml.org,2002:null" => if isNull text then some .null else none
  | some other => if isOwnTag (some other) then none else some (.str text)

/-- The text of a key, which must be a scalar. -/
def keyText? : Node → Option String
  | scalar text _ _ => some text
  | aliasOf target _ => keyText? target
  | _ => none

mutual

/-- The value of a node. -/
def value? : Node → Option Value
  | scalar text plain tag => scalarValue? text plain tag
  | list items tag => if isOwnTag tag then none else (valueItems? items).map .list
  | map members tag =>
      if isOwnTag tag then none else (valueMembers? members).map Value.ofMembers
  | aliasOf target _ => value? target

/-- The values of the items of a list. -/
def valueItems? : List Node → Option (List Value)
  | [] => some []
  | item :: rest => do return (← value? item) :: (← valueItems? rest)

/-- The keys and values of the members of a map. -/
def valueMembers? : List (Node × Node) → Option (List (String × Value))
  | [] => some []
  | (key, value) :: rest => do
      return (← keyText? key, ← value? value) :: (← valueMembers? rest)

end

end Node

/-- The deepest nesting of a document. -/
def maxDepth : Nat := 128

/-- The greatest number of times that each event of a document may follow an alias. -/
def maxJumps : Nat := 100

/-- The value of the document that a text is, if it is one. A text without a document is null. -/
def read? (text : String) : Option Value := do
  let tokens ← Token.scan? text.toList
  if tokens.isEmpty then return .null
  let node ← Node.ofTokens? tokens
  -- The bounds come first: below them the value is not much larger than the document.
  let reached := node.extent
  if reached.depth ≤ maxDepth && reached.jumps ≤ maxJumps * node.events then node.value?
  else none

end ApiTypes.Yaml
