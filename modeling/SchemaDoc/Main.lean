import SchemaDoc.CommandLine.Run

/-!
# The program

Runs an invocation on the files of the disk.  What it shows goes to the standard
output and what fails to the standard error.
-/

namespace SchemaDoc.Program

open CommandLine

/-- The result of an action, if it does not fail. -/
def attempt {α : Type} (action : IO α) : IO (Option α) := do
  match ← action.toBaseIO with
  | .ok result => pure (some result)
  | .error _ => pure none

/-- A path as a place on the disk. -/
def place (path : String) : IO.FS.DirEntry := ⟨path, ""⟩

/-- Whether metadata are those of a directory. -/
def kindOf (metadata : IO.FS.Metadata) : FileKind :=
  match metadata.type with
  | .dir => .directory
  | _ => .file

/-- The entries of a directory, with what they lead to. -/
def entriesOf (path : String) : IO (List (String × FileKind)) := do
  let entries ← (place path).root.readDir
  entries.toList.mapM fun entry => do
    let metadata ← attempt entry.path.metadata
    pure (entry.fileName, (metadata.map kindOf).getD .file)

/-- What a path leads to.  A link that leads nowhere counts as a file. -/
def kindAt (path : String) : IO (Option FileKind) := do
  match ← attempt (place path).root.metadata with
  | some metadata => pure (some (kindOf metadata))
  | none => pure ((← attempt (place path).root.symlinkMetadata).map fun _ => .file)

/-- The files of the disk.  A path has at most 4096 characters, so there are not more
directories inside each other. -/
def disk : FileSystem IO where
  kind := kindAt
  read path := attempt (IO.FS.readBinFile path)
  entries path := attempt (entriesOf path)
  makeDirectories path := do
    if path = "" then pure true else pure (← attempt (IO.FS.createDirAll path)).isSome
  write path text := do pure (← attempt (IO.FS.writeFile path text)).isSome
  depth := 4096

/-- How the program is called. -/
def usage : String :=
  "Usage: schemadoc [-v]... <signature|example|doc> --schema <FILE> [OPTIONS] <URI>\n"

/-- What is told about a failure. -/
def report (failure : Failure) : String :=
  "Error: " ++ "\n\nCaused by:\n    ".intercalate failure.messages ++ "\n"

/-- Whether a variable of the environment is set, and then whether it is on. -/
def switch? (name : String) : IO (Option Bool) := do
  pure ((← IO.getEnv name).map fun value => value != "0")

/-- Whether to show colors: always if that is asked for, never if that is asked for, and
else on a terminal. -/
def wantsColor : IO Bool := do
  if (← switch? "CLICOLOR_FORCE") = some true then return true
  if (← switch? "NO_COLOR").isSome then return false
  let isWanted := (← switch? "CLICOLOR").getD true
  return isWanted && (← (← IO.getStdout).isTty)

/-- Run an invocation on the disk. -/
def start (invocation : Invocation) : IO UInt32 := do
  match ← (invocation.run disk (← wantsColor)).run with
  | .ok printed =>
    (← IO.getStdout).putStr printed
    if invocation.verbosity > 0 then
      for path in invocation.command.out?.toList do
        (← IO.getStderr).putStr ("wrote " ++ path ++ "\n")
    return 0
  | .error failure =>
    (← IO.getStderr).putStr (report failure)
    return failure.exitStatus.toUInt32

end SchemaDoc.Program

/-- The program. -/
def main (args : List String) : IO UInt32 := do
  match SchemaDoc.CommandLine.Invocation.parse args with
  | .ok invocation => SchemaDoc.Program.start invocation
  | .error error =>
    let stream ← if error.exitStatus = 0 then IO.getStdout else IO.getStderr
    stream.putStr SchemaDoc.Program.usage
    return error.exitStatus.toUInt32
