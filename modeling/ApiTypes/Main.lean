import ApiTypes.Command

/-!
# The program

Reads the files of a command, runs it, and prints or writes what it answers.
-/

set_option autoImplicit false

open ApiTypes

/-- The texts of those files that can be read. -/
def readFiles : List String → IO Files
  | [] => pure []
  | path :: rest => do
      let found ← (IO.FS.readFile path).toBaseIO
      let others ← readFiles rest
      match found with
      | .ok text => pure ((path, text) :: others)
      | .error _ => pure others

/-- Prints what a command answers, or why it fails. -/
def answer (result : Except CommandError String) (output : Option String) : IO UInt32 :=
  match result with
  | .error e => do
      IO.eprintln ("Error: " ++ e.message)
      pure 1
  | .ok text => do
      match output with
      | some path => do
          if let some folder := folderOf? path then IO.FS.createDirAll folder
          IO.FS.writeFile path text
      | none => IO.println text
      pure 0

/-- Prints one line for every mapping document, up to the first that cannot be used. -/
def answerChecks (files : Files) : List String → IO UInt32
  | [] => pure 0
  | path :: rest => do
      let code ← answer (Command.check files path) none
      if code = 0 then answerChecks files rest else pure code

/-- Runs the command that the arguments name. -/
def main (arguments : List String) : IO UInt32 := do
  match Command.ofArguments? (← IO.getEnv "OAP_API") arguments with
  | none => do
      IO.eprintln "usage: resolve --api PATH [OPTION...] or check-mapping PATH..."
      pure 2
  | some command => do
      let files ← readFiles command.inputs
      match command with
      | .resolve c => answer (Command.report files c) c.output
      | .checkMapping paths => answerChecks files paths
