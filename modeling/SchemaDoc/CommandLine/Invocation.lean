import SchemaDoc.CommandLine.Arguments
import SchemaDoc.Documentation.Walk
import SchemaDoc.Session.Example

/-!
# Invocations

The program has three commands, which show the signature of a type, an example of
its values and its documentation.  An *invocation* is what a command is asked to do,
and `Invocation.parse` reads one from arguments.
-/

namespace SchemaDoc.CommandLine

/-- Where schemas are read from. -/
structure Sources where
  /-- The path of the root schema. -/
  schema : String
  /-- The name of the root schema. -/
  rootName : String := "EmmyRc"
  /-- Paths of further schemas and patterns of such paths. -/
  resources : List String := []
  /-- The keyword that marks a setting of the user. -/
  keyword : String := "x-vscode-setting"
deriving DecidableEq, Repr

/-- What to show. -/
inductive Command where
  | signature (plain : Bool)
  | exampleValue (selection : Selection) (out : Option String)
  | documentation (options : Documentation.Options) (out : Option String)

/-- What a command is asked to do. -/
structure Invocation where
  /-- How often more messages are asked for. -/
  verbosity : Nat
  sources : Sources
  /-- The name of the type to show. -/
  uri : String
  command : Command

/-- The commands. -/
inductive CommandName where
  | signature
  | exampleValue
  | documentation
deriving DecidableEq, Repr

/-! ## Options -/

/-- The options before the command. -/
def commonOptions : List Parameter :=
  [{ name := "verbose", letter := some 'v', arity := .count },
    { name := "help", letter := some 'h', arity := .help }]

/-- The options for schemas. -/
def sourceOptions : List Parameter :=
  [{ name := "schema", arity := .value, values := .nonempty },
    { name := "root-name", arity := .value }, { name := "resource", arity := .wordList },
    { name := "user-setting-keyword", arity := .value }]

/-- The option for a file to write. -/
def outOption : Parameter :=
  { name := "out", letter := some 'o', arity := .value, values := .nonempty }

namespace CommandName

/-- The command of a name. -/
def ofName? : String → Option CommandName
  | "signature" => some .signature
  | "example" => some .exampleValue
  | "doc" => some .documentation
  | _ => none

/-- The options that only this command has. -/
def ownOptions : CommandName → List Parameter
  | .signature => [{ name := "no-color", arity := .flag }]
  | .exampleValue =>
    [{ name := "kind", arity := .value, values := .among ["all", "user", "project"] }, outOption]
  | .documentation =>
    [{ name := "recursive", arity := .flag }, { name := "unwrap", arity := .flag },
      { name := "title", arity := .value }, { name := "exclude", arity := .list }, outOption]

/-- The options of a command. -/
def options (name : CommandName) : List Parameter :=
  commonOptions ++ sourceOptions ++ name.ownOptions

end CommandName

/-- The selection of a kind of settings. -/
def selectionOf (kind : Option String) : Selection :=
  if kind = some "user" then .user else if kind = some "project" then .project else .all

namespace Invocation

/-! ## Reading -/

/-- The command that is read. -/
def commandOf (reading : Reading) : CommandName → Command
  | .signature => .signature (reading.has "no-color")
  | .exampleValue => .exampleValue (selectionOf (reading.value? "kind")) (reading.value? "out")
  | .documentation =>
    let options : Documentation.Options :=
      { recursive := reading.has "recursive"
        unwrap := reading.has "unwrap"
        title := reading.value? "title"
        exclude := reading.values "exclude" }
    .documentation options (reading.value? "out")

/-- The sources that are read, with the path of the root schema. -/
def sourcesOf (reading : Reading) (schema : String) : Sources :=
  let sources : Sources := { schema, resources := reading.values "resource" }
  { sources with
    rootName := (reading.value? "root-name").getD sources.rootName
    keyword := (reading.value? "user-setting-keyword").getD sources.keyword }

/-- How often more messages are asked for after the command, and before it if they are
not asked for after it.  The count stops at 255. -/
def verbosityOf (before after : Reading) : Nat :=
  min 255 (if after.has "verbose" then after.count "verbose" else before.count "verbose")

/-- Read the arguments after the name of a command. -/
def parseCommand (before : Reading) (name : CommandName) (args : List String) :
    Except UsageError Invocation := do
  let after ← Reading.readAll name.options args
  match after.value? "schema", after.words with
  | some schema, uri :: _ =>
    let verbosity := verbosityOf before after
    return { verbosity, sources := sourcesOf after schema, uri, command := commandOf after name }
  | _, _ => throw .missingArgument

/-- Whether a word stands where a command is asked for. -/
def isCommandName (word : String) : Bool := word == "help" || (CommandName.ofName? word).isSome

/-- What comes of asking for help on what some words name. -/
def helpOn : List String → UsageError
  | [] => .helpAsked
  | [word] => if isCommandName word then .helpAsked else .unknownCommand
  | _ => .unknownCommand

/-- The invocation that arguments ask for. -/
def parse (args : List String) : Except UsageError Invocation := do
  let (before, rest) ← Reading.readUntilWord commonOptions {} args
  match rest with
  | [] => throw (if before.given.isEmpty then .nothingAsked else .missingCommand)
  | word :: rest =>
    if before.onlyWords then
      throw (if isCommandName word then .unknownArgument else .unknownCommand)
    if word = "help" then throw (helpOn rest)
    match CommandName.ofName? word with
    | none => throw .unknownCommand
    | some name => parseCommand before name rest

/-! ## Tests -/

section Tests

/-- What is wrong with some arguments. -/
def faultOf (args : List String) : Option UsageError :=
  match parse args with
  | .ok _ => none
  | .error error => some error

/-- How often more messages are asked for. -/
def verbosityIn (args : List String) : Option Nat := (parse args).toOption.map verbosity

example : faultOf [] = some .nothingAsked ∧ faultOf ["-v"] = some .missingCommand := by
  decide +kernel
example : faultOf ["help", "doc"] = some .helpAsked ∧ faultOf ["help", "x"] = some .unknownCommand := by
  decide +kernel
example : faultOf ["--", "doc"] = some .unknownArgument ∧ faultOf ["--version"] = some .unknownArgument := by
  decide +kernel
example : faultOf ["doc", "R"] = some .missingArgument := by decide +kernel
example : verbosityIn ["-vv", "doc", "--schema", "s", "R", "-v"] = some 1 := by decide +kernel

end Tests

end Invocation

end SchemaDoc.CommandLine
