import SchemaDoc.CommandLine.Invocation
import SchemaDoc.Files.Glob
import SchemaDoc.Page.Markdown
import SchemaDoc.Session.Print
import SchemaDoc.Signature.Highlight

/-!
# Runs

To run an invocation is to read its sources, to show what it asks for and to write
that to a file or hand it over to be printed.  `Sources.documents` reads all sources
under their names, the root schema first, and the registry holds them in this order.

A run works on any file system and fails with the first `Failure`.
-/

namespace SchemaDoc.CommandLine

/-- Why a run fails. -/
inductive Failure where
  | rootSchema (path : String) (cause : LoadError)
  | invalidPattern (pattern : String)
  /-- A directory in which files are looked for cannot be read. -/
  | unreadableDirectory (path : String)
  | noMatch (pattern : String)
  | noFileName (path : String)
  | resource (cause : LoadError)
  | load (uri : String) (cause : LoadError)
  | documentation (uri : String) (cause : LoadError)
  /-- The documentation of a name has no end, so that a run uses up its stack. -/
  | endless (uri : String)
  | notCreated (path : String)
  | notWritten (path : String)
deriving DecidableEq, Repr

namespace Failure

/-- What fails, unless the error behind it says so or the run is aborted. -/
def context? : Failure → Option String
  | .rootSchema path _ => some ("failed to load root schema " ++ path)
  | .invalidPattern pattern => some ("invalid glob pattern: " ++ pattern)
  | .unreadableDirectory _ => none
  | .noMatch pattern => some ("glob pattern matched no files: " ++ pattern)
  | .noFileName path => some ("resource path has no file name: " ++ path)
  | .resource _ => none
  | .load uri _ => some ("failed to load " ++ LoadError.inTicks uri)
  | .documentation uri _ => some ("failed to document " ++ LoadError.inTicks uri)
  | .endless _ => none
  | .notCreated path => some ("failed to create " ++ path)
  | .notWritten path => some ("failed to write " ++ path)

/-- Why something fails that no schema is to blame for. -/
def reason? : Failure → Option String
  | .unreadableDirectory path =>
    some ("attempting to read " ++ LoadError.inTicks path ++ " resulted in an error")
  | .endless _ => some "the stack is used up"
  | _ => none

/-- The error behind a failure. -/
def cause? : Failure → Option LoadError
  | .rootSchema _ cause => some cause
  | .resource cause => some cause
  | .load _ cause => some cause
  | .documentation _ cause => some cause
  | _ => none

/-- The messages of a failure, from what fails to why. -/
def messages (failure : Failure) : List String :=
  failure.context?.toList ++ failure.reason?.toList ++ (failure.cause?.map LoadError.message).toList

/-- The status with which a program ends.  It is aborted if it uses up its stack. -/
def exitStatus : Failure → Nat
  | .endless _ => 134
  | _ => 1

end Failure

variable {m : Type → Type} [Monad m]

/-! ## Reading the sources -/

/-- The paths that a path or a pattern of paths stands for. -/
def expand (files : FileSystem m) (pattern : String) : ExceptT Failure m (List String) := do
  if !Glob.isPattern pattern then pure [pattern]
  else
    match Glob.parse? pattern with
    | none => throw (.invalidPattern pattern)
    | some glob =>
      let paths ← (glob.paths files).adapt Failure.unreadableDirectory
      if paths.isEmpty then throw (.noMatch pattern) else pure paths

/-- The document in a file, under the name of the file. -/
def documentAt (files : FileSystem m) (path : String) : ExceptT Failure m (String × Json) := do
  match Path.fileName? path with
  | none => throw (.noFileName path)
  | some name => pure (name, ← (files.readJson path).adapt Failure.resource)

namespace Sources

/-- The documents under their names, the root schema first. -/
def documents (files : FileSystem m) (sources : Sources) :
    ExceptT Failure m (List (String × Json)) := do
  let root ← (files.readJson sources.schema).adapt (Failure.rootSchema sources.schema)
  let paths ← sources.resources.mapM (expand files)
  let further ← paths.flatten.mapM (documentAt files)
  pure ((sources.rootName, root) :: further)

/-- The registry of documents.  Of two with one name it holds the later. -/
def registryOf (documents : List (String × Json)) : Registry :=
  documents.foldl (fun registry document => registry.register document.1 document.2) {}

/-- A session with the schemas of all sources. -/
def session (files : FileSystem m) (sources : Sources) : ExceptT Failure m Session := do
  let registry := registryOf (← documents files sources)
  pure { registry := registry.crawl, keyword := sources.keyword }

end Sources

/-! ## Showing and writing -/

/-- Load the type to show. -/
def loadRoot (session : Session) (uri : String) : Except Failure (Ty × Session) :=
  match session.load uri with
  | (.ok ty, session) => .ok (ty, session)
  | (.error error, _) => .error (.load uri error)

/-- What a command shows of a type, in color or not. -/
def Command.show (color : Bool) (session : Session) (uri : String) : Command → Except Failure String
  | .signature plain => do
    let (ty, session) ← loadRoot session uri
    return Token.highlight (color && !plain) (session.print ty false)
  | .exampleValue selection _ => do
    let (ty, session) ← loadRoot session uri
    return (session.exampleOf ty selection).pretty
  | .documentation options _ =>
    if !session.documentHasEnd uri options then .error (.endless uri)
    else
      match session.document uri options with
      | (.ok blocks, _) => .ok (Page.ofEvents (Block.eventsOfAll blocks)).markdown
      | (.error error, _) => .error (.documentation uri error)

/-- The file that a command writes. -/
def Command.out? : Command → Option String
  | .signature _ => none
  | .exampleValue _ out => out
  | .documentation _ out => out

/-- Write a text to a file, in a directory that is made if need be. -/
def writeTo (files : FileSystem m) (path text : String) : ExceptT Failure m Unit := do
  match Path.parent? path with
  | none => pure ()
  | some parent => if !(← files.makeDirectories parent) then throw (.notCreated parent)
  if !(← files.write path text) then throw (.notWritten path)

/-- Run an invocation.  Gives the text to print. -/
def Invocation.run (files : FileSystem m) (color : Bool) (invocation : Invocation) :
    ExceptT Failure m String := do
  let session ← invocation.sources.session files
  match invocation.command.show color session invocation.uri with
  | .error failure => throw failure
  | .ok text =>
    match invocation.command.out? with
    | none => pure (text ++ "\n")
    | some path => do
      writeTo files path text
      pure ""

end SchemaDoc.CommandLine
