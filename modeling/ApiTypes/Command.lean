import ApiTypes.Document.Yaml.Printer
import ApiTypes.Report

/-!
# Commands

The two commands of the program: `resolve` prints the report of a description, `check-mapping` one
line for every mapping document. A command works on the texts of files, given under their paths, so
that running it reads and writes nothing.
-/

set_option autoImplicit false

namespace ApiTypes

/-- The forms in which a report is written. -/
inductive ReportForm where
  | yaml
  | json
  deriving DecidableEq

/-- A document in a form. -/
def ReportForm.print : ReportForm → Value → String
  | yaml, v => Yaml.print v
  | json, v => v.pretty

/-- What the command `resolve` is told. -/
structure ResolveCommand where
  /-- The path of the description. -/
  description : String
  /-- The paths of the mapping documents; later ones come before earlier ones. -/
  mappings : List String := []
  /-- Settings that come before those of the mapping documents. -/
  settings : MappingOptions := {}
  /-- The form of the report. -/
  form : ReportForm := .yaml
  /-- The path to which the report goes, if it is not printed. -/
  output : Option String := none

/-- A command. -/
inductive Command where
  | resolve (c : ResolveCommand)
  | checkMapping (paths : List String)

/-- The texts of files under their paths. -/
abbrev Files := List (String × String)

/-- Why a command fails. -/
inductive CommandError where
  /-- The description is not there. -/
  | noDescription (path : String)
  /-- A mapping document is not there. -/
  | noMapping (path : String)
  /-- The run fails. -/
  | run (error : Error)
  deriving DecidableEq

/-- The wording of the failure of a command. -/
def CommandError.message : CommandError → String
  | noDescription path => "Operation failed: OpenAPI file not found: " ++ Text.shown path
  | noMapping path =>
      "Operation failed: Failed to read mapping " ++ Text.shown path
        ++ ": No such file or directory (os error 2)"
  | run error => error.message

namespace Command

/-- Reads a mapping document. -/
def readMapping (files : Files) (path : String) : Except CommandError Mapping :=
  match findValue? path files with
  | none => .error (.noMapping path)
  | some text => (Mapping.parse text).mapError fun fault => .run (.mapping fault)

/-- The settings of a run: those of the mapping documents, then those of the command. -/
def options (files : Files) (c : ResolveCommand) : Except CommandError Options := do
  let mappings ← c.mappings.mapM (readMapping files)
  let options : Options := { mappings }
  return options.applyMappings.override c.settings

/-- The report of a description. -/
def report (files : Files) (c : ResolveCommand) : Except CommandError String := do
  let some text := findValue? c.description files | throw (.noDescription c.description)
  let options ← options files c
  let api ← (resolveText text options).mapError .run
  return c.form.print (Report.ofApi api).toValue

/-- The line about a mapping document. -/
def check (files : Files) (path : String) : Except CommandError String := do
  let mapping ← readMapping files path
  return path ++ ": " ++ mapping.summary

/-- The paths of the files that a command reads. -/
def inputs : Command → List String
  | resolve c => c.description :: c.mappings
  | checkMapping paths => paths

end Command

/-! ## Arguments -/

namespace ResolveCommand

/-- Takes over one option and its value; nothing if the option or its value is not known. -/
def withOption? (c : ResolveCommand) (name value : String) : Option ResolveCommand :=
  match name with
  | "--api" => some { c with description := value }
  | "--mapping" => some { c with mappings := c.mappings ++ [value] }
  | "--package-name" => some { c with settings := { c.settings with packageName := some value } }
  | "--bean-validation" =>
      (Validation.parse value).toOption.map fun v =>
        { c with settings := { c.settings with validation := some v } }
  | "--model-name-suffix" =>
      some { c with settings := { c.settings with modelNameSuffix := some value } }
  | "--format" =>
      match value with
      | "yaml" => some { c with form := .yaml }
      | "json" => some { c with form := .json }
      | _ => none
  | "--output" => some { c with output := some value }
  | "-o" => some { c with output := some value }
  | _ => none

/-- Takes over options. -/
def withOptions? (c : ResolveCommand) : List String → Option ResolveCommand
  | [] => some c
  | "--one-of-interface" :: rest =>
      withOptions? { c with settings := { c.settings with oneOfInterface := some true } } rest
  | name :: value :: rest => (c.withOption? name value).bind fun c => withOptions? c rest
  | [_] => none

end ResolveCommand

/-- An argument, cut in two if it is an option with its value after an equals sign. -/
def splitArgument (argument : String) : List String :=
  let name := argument.toList.takeWhile (· != '=')
  match name, argument.toList.drop name.length with
  | '-' :: '-' :: _, _ :: value => [String.ofList name, String.ofList value]
  | _, _ => [argument]

/-- The folder of a path, if the path names one. -/
def folderOf? (path : String) : Option String :=
  let folder := (path.toList.reverse.dropWhile (· != '/')).tail.reverse
  if folder.isEmpty then none else some (String.ofList folder)

/-- The command that arguments name; `description` is the path of the description where no option
gives it. -/
def Command.ofArguments? (description : Option String) : List String → Option Command
  | "resolve" :: options => do
      let start : ResolveCommand := { description := description.getD "" }
      let c ← start.withOptions? (options.flatMap splitArgument)
      if c.description.isEmpty then none else return .resolve c
  | "check-mapping" :: paths => if paths.isEmpty then none else some (.checkMapping paths)
  | _ => none

end ApiTypes
