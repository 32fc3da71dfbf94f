import ApiTypes.Mapping.Document

/-!
# Rule lookup

Which rules of several mapping documents apply to a schema. Rules of the path come before rules of
the whole API, and in each scope the last rule that matches wins: of later documents before
earlier ones, and inside a document of the list for the use before the list for schemas. Rules for
the name of a parameter or for a content type are looked up by that name alone.

Lookups walk over rules together with their places, so that two rules which read the same are
still told apart.
-/

set_option autoImplicit false

namespace ApiTypes

/-- How a schema is used. -/
inductive Use where
  /-- As a component, or inside another schema. -/
  | schema
  /-- As the schema of a parameter of the given name. -/
  | parameter (name : String)
  /-- As the schema of a response of the given content type. -/
  | response (contentType : String)
  deriving DecidableEq

/-- The list that belongs to a use; schemas have no list besides the one for all schemas. -/
def Use.section? : Use → Option Section
  | schema => none
  | parameter _ => some .parameters
  | response _ => some .responses

/-- The parameter name or the content type of a use. -/
def Use.name? : Use → Option String
  | schema => none
  | parameter name => some name
  | response contentType => some contentType

/-- What rules may look at in a schema. -/
structure SchemaFeatures where
  /-- The name of the schema, if it is a component. -/
  name : Option String := none
  /-- The type. -/
  type : Option String := none
  /-- The format. -/
  format : Option String := none
  deriving DecidableEq

/-- Whether a source matches a schema: by name where it has no format, or by type with the same
format or none. -/
def SchemaFeatures.matches (features : SchemaFeatures) (source : RuleSource) : Bool :=
  (source.format.isNone && features.name == some source.type)
    || (features.type == some source.type
        && (source.format.isNone || features.format == source.format))

/-- The place of a rule among all documents. -/
structure RulePlace where
  /-- Whether the rule belongs to a path. -/
  ofPath : Bool
  /-- The number of the document. -/
  document : Nat
  /-- The list. -/
  place : Section
  /-- The position in the list. -/
  index : Nat
  deriving DecidableEq

/-- A rule and its place. -/
abbrev PlacedRule := RulePlace × Rule

namespace Lookup

/-- The rules of a list with their places. -/
def placed (ofPath : Bool) (document : Nat) (place : Section) (rules : List Rule) :
    List PlacedRule :=
  rules.zipIdx.map fun (rule, index) => (⟨ofPath, document, place, index⟩, rule)

/-- The scopes that apply: the number of a document and its rules. -/
abbrev Scopes := List (Nat × RuleSet)

/-- The rules that documents have for a path. -/
def pathScopes (mappings : List Mapping) (path : Option String) : Scopes :=
  match path with
  | none => []
  | some path =>
      mappings.zipIdx.filterMap fun (m, document) =>
        (m.paths.get? path).map fun found => (document, found.rules)

/-- The rules that documents have for the whole API. -/
def globalScopes (mappings : List Mapping) : Scopes :=
  mappings.zipIdx.map fun (m, document) => (document, m.global)

/-- The rules of a scope that are for a use alone. -/
def useRules (ofPath : Bool) (use : Use) (scope : Nat × RuleSet) : List PlacedRule :=
  match use.section? with
  | some place => placed ofPath scope.1 place (scope.2.rulesOf place)
  | none => []

/-- The rules of a scope that apply to a use: those for schemas, then those for the use alone. -/
def candidates (ofPath : Bool) (use : Use) (scope : Nat × RuleSet) : List PlacedRule :=
  placed ofPath scope.1 .types scope.2.types ++ useRules ofPath use scope

/-- The last rule that satisfies a condition, of the path if there is one, else of the whole
API. -/
def winner? (mappings : List Mapping) (path : Option String)
    (rules : Bool → Nat × RuleSet → List PlacedRule) (wanted : Rule → Bool) :
    Option PlacedRule :=
  let last (ofPath : Bool) (scopes : Scopes) : Option PlacedRule :=
    ((scopes.flatMap (rules ofPath)).filter fun r => wanted r.2).getLast?
  (last true (pathScopes mappings path)).or (last false (globalScopes mappings))

/-- Whether schemas may become something else on a path than elsewhere. -/
def hasPathTypes (mappings : List Mapping) (path : String) : Bool :=
  (pathScopes mappings (some path)).any fun scope => !scope.2.types.isEmpty

/-- Whether the last document with rules for a path leaves it out. -/
def isExcluded (mappings : List Mapping) (path : String) : Bool :=
  match mappings.reverse.findSome? (·.paths.get? path) with
  | some found => found.exclude
  | none => false

/-- The rule for the parameter name or the content type of a use. -/
def useRule? (mappings : List Mapping) (path : Option String) (use : Use) : Option Rule :=
  match use.name? with
  | none => none
  | some name =>
      (winner? mappings path (fun ofPath => useRules ofPath use) fun rule =>
        rule.kind == .use && rule.source.type == name).map Prod.snd

/-- The rule, with its place, that gives a schema its type in a use. -/
def placedTypeRule? (mappings : List Mapping) (path : Option String) (use : Use)
    (features : SchemaFeatures) : Option PlacedRule :=
  winner? mappings path (fun ofPath => candidates ofPath use) fun rule =>
    rule.kind == .type && features.matches rule.source

/-- The rule that gives a schema its type in a use. -/
def typeRule? (mappings : List Mapping) (path : Option String) (use : Use)
    (features : SchemaFeatures) : Option Rule :=
  (placedTypeRule? mappings path use features).map Prod.snd

/-- The rule that gives a schema its type in a use, unless the schema has the same rule without
the use. -/
def usageTypeRule? (mappings : List Mapping) (path : Option String) (use : Use)
    (features : SchemaFeatures) : Option Rule :=
  match placedTypeRule? mappings path use features with
  | none => none
  | some (place, rule) =>
      match placedTypeRule? mappings path .schema features with
      -- Equal rules at different places are different rules.
      | some (plain, _) => if plain = place then none else some rule
      | none => some rule

/-- Whether two rules add the same annotation to the same schemas. -/
def sameAnnotation (a b : Rule) : Bool :=
  a.source == b.source &&
    match a.annotation, b.annotation with
    | some x, some y => x.same y
    | none, none => true
    | _, _ => false

/-- Adds a rule to the end unless one like it is there. -/
def addNew (found : List Rule) (rule : Rule) : List Rule :=
  if found.any fun other => sameAnnotation other rule then found else found ++ [rule]

/-- The rules that add annotations to a schema, those of the path first, each of them once. -/
def collectAnnotateRules (mappings : List Mapping) (path : Option String)
    (rules : Bool → Nat × RuleSet → List PlacedRule) (features : SchemaFeatures) : List Rule :=
  let all := (pathScopes mappings path).flatMap (rules true)
    ++ (globalScopes mappings).flatMap (rules false)
  ((all.map Prod.snd).filter fun rule =>
    rule.kind == .annotate && features.matches rule.source).foldl addNew []

/-- The rules that add annotations to a schema in a use. -/
def annotateRules (mappings : List Mapping) (path : Option String) (use : Use)
    (features : SchemaFeatures) : List Rule :=
  collectAnnotateRules mappings path (fun ofPath => candidates ofPath use) features

/-- The rules that add annotations to a schema for the use alone. -/
def usageAnnotateRules (mappings : List Mapping) (path : Option String) (use : Use)
    (features : SchemaFeatures) : List Rule :=
  collectAnnotateRules mappings path (fun ofPath => useRules ofPath use) features

end Lookup

end ApiTypes
