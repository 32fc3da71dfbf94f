import ApiTypes.Document.Json
import ApiTypes.Document.Record
import ApiTypes.Document.Yaml.Node
import ApiTypes.Mapping.Rule
import ApiTypes.Validation

/-!
# Mapping documents

A mapping document holds the rules of a run: lists of rules for schemas, parameters and responses,
once for the whole API and once for each path that has rules of its own. A path may also be left
out of the run. Both generations of the format are read into the same rules; the version, which
must be given, names the generation.
-/

set_option autoImplicit false

namespace ApiTypes

/-- The rules of one scope, each list in the order of the document. -/
structure RuleSet where
  /-- Rules for schemas. -/
  types : List Rule := []
  /-- Rules for parameters. -/
  parameters : List Rule := []
  /-- Rules for responses. -/
  responses : List Rule := []

namespace RuleSet

instance : Inhabited RuleSet := ⟨{}⟩

/-- Whether there are no rules. -/
def isEmpty (s : RuleSet) : Bool :=
  s.types.isEmpty && s.parameters.isEmpty && s.responses.isEmpty

/-- The rules of a list. -/
def rulesOf (s : RuleSet) : Section → List Rule
  | .types => s.types
  | .parameters => s.parameters
  | .responses => s.responses

/-- All rules. -/
def all (s : RuleSet) : List Rule := s.types ++ s.parameters ++ s.responses

end RuleSet

/-- The rules of one path. -/
structure PathMapping where
  /-- Whether the path is left out. -/
  exclude : Bool := false
  /-- The rules. -/
  rules : RuleSet := {}

instance : Inhabited PathMapping := ⟨{}⟩

/-- The options that a mapping document may set. -/
structure MappingOptions where
  /-- The root package. -/
  packageName : Option String := none
  /-- The annotations for constraints. -/
  validation : Option Validation := none
  /-- The suffix of the names of generated types. -/
  modelNameSuffix : Option String := none
  /-- Whether alternatives become an interface. -/
  oneOfInterface : Option Bool := none

/-- The generations of the format. -/
inductive Generation where
  /-- Rules with separate sources and targets. -/
  | first
  /-- Rules on one line. -/
  | second
  deriving DecidableEq

/-- The name of a generation. -/
def Generation.label : Generation → String
  | first => "V1"
  | second => "V2"

/-- A mapping document. -/
structure Mapping where
  /-- The version as it is written. -/
  version : String
  /-- Whether the version was given under its old name. -/
  hasOldVersionName : Bool
  /-- The options. -/
  options : MappingOptions
  /-- The rules for the whole API. -/
  global : RuleSet
  /-- The rules of paths. -/
  paths : OrderedMap PathMapping

namespace Mapping

/-- The name of the version. -/
def versionName : String := "openapi-processor-mapping"

/-- The old name of the version. -/
def oldVersionName : String := "openapi-processor-spring"

/-- Whether a text begins with the characters of another. -/
def beginsWith (text start : String) : Bool :=
  start.toList.isPrefixOf text.toList

/-- The generation: the second for versions that begin with `v2`. -/
def generation (m : Mapping) : Generation :=
  if beginsWith m.version "v2" then .second else .first

/-! ## Reading entries -/

/-- The fields of an entry. -/
def entryFields : List String := ["type", "name", "content", "from", "to", "generics"]

/-- Reads an entry. -/
def entry? (v : Value) : Option Entry := do
  let r ← v.record? entryFields
  return {
    type := ← r.optional? "type" Value.text?
    name := ← r.optional? "name" Value.text?
    content := ← r.optional? "content" Value.text?
    source := ← r.optional? "from" Value.text?
    target := ← r.optional? "to" Value.text?
    generics := ← r.orElse? "generics" [] Value.texts? }

/-- The entries of one scope. -/
structure EntrySet where
  /-- Whether the path is left out. -/
  exclude : Bool := false
  /-- The entries for schemas. -/
  types : List Entry := []
  /-- The entries for parameters. -/
  parameters : List Entry := []
  /-- The entries for responses. -/
  responses : List Entry := []

/-- Reads the entries of the whole API, or of a path, from the record that holds them. -/
def entrySet? (r : Record) (exclude : Bool) : Option EntrySet := do
  return {
    exclude
    types := ← r.orElse? "types" [] (Value.listOf? entry?)
    parameters := ← r.orElse? "parameters" [] (Value.listOf? entry?)
    responses := ← r.orElse? "responses" [] (Value.listOf? entry?) }

/-- Reads the entries of a path. -/
def pathEntries? (v : Value) : Option EntrySet := do
  let r ← v.record? ["exclude", "types", "parameters", "responses"]
  entrySet? r (← r.orElse? "exclude" false Value.bool?)

/-- Reads the entries of a document: those of the whole API and those of its paths. -/
def mapEntries? (v : Value) : Option (EntrySet × List (String × EntrySet)) := do
  let r ← v.record? ["types", "parameters", "responses", "paths"]
  let global ← entrySet? r false
  let paths ← r.orElse? "paths" [] (Value.mapOf? pathEntries?)
  return (global, paths)

/-- The options of a document before the text of the validation option is read. -/
structure RawOptions where
  /-- The root package. -/
  packageName : Option String := none
  /-- The annotations for constraints, whatever was written. -/
  validation : Option Value := none
  /-- The suffix of the names of generated types. -/
  modelNameSuffix : Option String := none
  /-- Whether alternatives become an interface. -/
  oneOfInterface : Option Bool := none

/-- Reads the options of a document. -/
def rawOptions? (v : Value) : Option RawOptions := do
  let r ← v.record?
    ["package-name", "bean-validation", "model-name-suffix", "one-of-interface"]
  return {
    packageName := ← r.optional? "package-name" Value.text?
    validation := ← r.optional? "bean-validation" some
    modelNameSuffix := ← r.optional? "model-name-suffix" Value.text?
    oneOfInterface := ← r.optional? "one-of-interface" Value.bool? }

/-- The options, the entries of the whole API and the entries of paths. -/
abbrev Contents := RawOptions × EntrySet × List (String × EntrySet)

/-- Reads what a document holds besides its version. -/
def contents? (v : Value) : Option Contents := do
  let r ← v.record? ["options", "map"]
  let options ← r.orElse? "options" {} rawOptions?
  let (global, paths) ← r.orElse? "map" ({}, []) mapEntries?
  return (options, global, paths)

/-! ## From entries to rules -/

/-- The rule of an entry that names a parameter or a content type. -/
def useRule (name : String) (target : Option String) : Except RuleFault Rule :=
  match target with
  | some target => Rule.useOfParts name target
  | none => Rule.parseUse name

/-- The rule of an entry without its further type arguments. -/
def entryRule (place : Section) (e : Entry) : Except MappingFault Rule :=
  match e.type, e.source, e.target with
  | some text, _, _ => (Rule.parseType text).mapError .rule
  | none, some source, some target => (Rule.typeOfParts source target).mapError .rule
  | none, _, _ =>
      match place, e.name, e.content with
      | .parameters, some name, _ => (useRule name e.target).mapError .rule
      | .responses, _, some content => (useRule content e.target).mapError .rule
      | _, _, _ => .error (.unsupportedEntry place e)

/-- The rule of an entry. Type arguments are added to targets only. -/
def normalize (place : Section) (e : Entry) : Except MappingFault Rule := do
  let rule ← entryRule place e
  if rule.kind = .annotate then return rule
  else (rule.addGenerics e.generics).mapError .rule

/-- The rules of a scope. -/
def ruleSet (entries : EntrySet) : Except MappingFault RuleSet := do
  let types ← entries.types.mapM (normalize .types)
  let parameters ← entries.parameters.mapM (normalize .parameters)
  let responses ← entries.responses.mapM (normalize .responses)
  return { types, parameters, responses }

/-- The validation option. -/
def validationOption : Option Value → Except MappingFault (Option Validation)
  | none => .ok none
  | some .null => .ok none
  | some (.bool true) => .ok (some .javax)
  | some (.bool false) => .ok (some .disabled)
  | some (.str text) => (Validation.parse text).map some
  | some other => .error (.badValidation other.compact)

/-- The options of a document. -/
def mappingOptions (raw : RawOptions) : Except MappingFault MappingOptions := do
  return {
    packageName := raw.packageName
    validation := ← validationOption raw.validation
    modelNameSuffix := raw.modelNameSuffix
    oneOfInterface := raw.oneOfInterface }

/-- The version of a document and whether it stands under the old name. -/
def version? (v : Value) : Option (Value × Bool) :=
  match v.get? versionName with
  | some version => some (version, false)
  | none => (v.get? oldVersionName).map fun version => (version, true)

/-- The text of a version, which may be written as a value of any kind. -/
def versionText : Value → String
  | .str text => text
  | other => other.compact

/-- Reads a mapping document from its value. The version is looked at before anything else, the
rules of the whole API come before those of paths, and the options come last. -/
def ofValue (v : Value) : Except MappingFault Mapping := do
  -- A document of an unknown version is not looked into.
  if v.members?.isNone then throw .notAnObject
  let some (version, hasOldVersionName) := version? v | throw (.noVersion versionName)
  let version := versionText version
  if !(beginsWith version "v1" || beginsWith version "v2") then throw (.unknownVersion version)
  let some (raw, globalEntries, pathEntries) := contents? v | throw .badShape
  let global ← ruleSet globalEntries
  let paths ← pathEntries.mapM fun (path, entries) => do
    return (path, { exclude := entries.exclude, rules := ← ruleSet entries : PathMapping })
  let options ← mappingOptions raw
  return { version, hasOldVersionName, options, global, paths := .ofList paths }

/-- Reads a mapping document from its text. -/
def parse (text : String) : Except MappingFault Mapping :=
  match Yaml.read? text with
  | some v => ofValue v
  | none => .error .unreadable

/-! ## Summary -/

/-- The number of rules of a kind. -/
def count (m : Mapping) (kind : RuleKind) : Nat :=
  ((m.global :: m.paths.values.map (·.rules)).flatMap RuleSet.all).countP (·.kind = kind)

/-- One line about a mapping document. -/
def summary (m : Mapping) : String :=
  "version " ++ m.version ++ " (" ++ m.generation.label
    ++ (if m.hasOldVersionName then ", deprecated version key" else "") ++ "): "
    ++ toString (m.count .type) ++ " type, " ++ toString (m.count .use) ++ " map, "
    ++ toString (m.count .annotate) ++ " annotate rules, " ++ toString m.paths.size ++ " paths"

end Mapping

end ApiTypes
