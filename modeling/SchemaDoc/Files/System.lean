import SchemaDoc.Files.Path
import SchemaDoc.Json.Reader
import SchemaDoc.LoadError

/-!
# File systems

A *file system* is what a run can do with files, in some monad.  A `FileTree` is a
file system in memory, with relative paths only.  Above it there are directories with
nothing else in them.  A name is at most 255 bytes long in it and a path at most 4095, and
neither has a NUL.
-/

namespace SchemaDoc

/-- What a path leads to. -/
inductive FileKind where
  | file
  | directory
deriving DecidableEq, Repr

/-- What can be done with files. -/
structure FileSystem (m : Type → Type) where
  /-- What a path leads to, if anything. -/
  kind : String → m (Option FileKind)
  /-- The contents of a file. -/
  read : String → m (Option ByteArray)
  /-- The names in a directory and what they lead to, if it can be read. -/
  entries : String → m (Option (List (String × FileKind)))
  /-- Make a directory and those above it, unless they are there.  Tells whether
  they are there then. -/
  makeDirectories : String → m Bool
  /-- Write a file.  Tells whether it is written. -/
  write : String → String → m Bool
  /-- The greatest number of directories inside each other. -/
  depth : Nat

/-- Read a file as JSON. -/
def FileSystem.readJson {m : Type → Type} [Monad m] (files : FileSystem m) (path : String) :
    ExceptT LoadError m Json := do
  match (← files.read path).bind String.fromUTF8? with
  | none => throw (.unreadable path)
  | some text =>
    match Json.parse? text with
    | none => throw (.notJson path)
    | some value => pure value

/-- Files in memory, under the names that lead to them. -/
structure FileTree where
  files : Table (List String) ByteArray := []
  /-- Directories that are there without a file in them. -/
  directories : List (List String) := []

namespace FileTree

/-- Whether some names lead to the tree or above it. -/
def isAbove (names : List String) : Bool := names.all fun name => name == ".."

/-- Whether some names lead to a directory. -/
def isDirectory (tree : FileTree) (names : List String) : Bool :=
  isAbove names || tree.directories.any (names.isPrefixOf ·) ||
    tree.files.keys.any fun file => names.isPrefixOf file && file != names

/-- The names that lead to the directory around a place. -/
def around (names : List String) : List String :=
  if isAbove names then names ++ [".."] else names.dropLast

/-- Whether a text is short enough for a name. -/
def isName (name : String) : Bool := name.utf8ByteSize ≤ 255

/-- Whether a text may be a path. -/
def isPath (path : String) : Bool := path.utf8ByteSize ≤ 4095 && !path.toList.contains '\x00'

/-- The names that lead where some pieces of a path lead from a place.  Every place on
the way but the last must be a directory. -/
def walk (tree : FileTree) (names : List String) : List String → Option (List String)
  | [] => some names
  | piece :: rest =>
    if !tree.isDirectory names then none
    else if piece = "" || piece = "." then walk tree names rest
    else if piece = ".." then walk tree (around names) rest
    else if isName piece then walk tree (names ++ [piece]) rest
    else none

/-- The pieces of a relative path. -/
def pieces? (path : String) : Option (List String) :=
  if path = "" || Path.isAbsolute path || !isPath path then none
  else some ((Text.splitOn '/' path.toList).map String.ofList)

/-- The names that a path leads along. -/
def locate? (tree : FileTree) (path : String) : Option (List String) :=
  (pieces? path).bind (tree.walk [])

/-- What a path leads to. -/
def kindOf (tree : FileTree) (path : String) : Option FileKind :=
  (tree.locate? path).bind fun names =>
    if tree.isDirectory names then some .directory
    else if tree.files.has names then some .file
    else none

/-- The name that a file has below a directory, and what it leads to there. -/
def entryBelow? (directory file : List String) : Option (String × FileKind) :=
  if directory.isPrefixOf file then
    match file.drop directory.length with
    | [] => none
    | [name] => some (name, .file)
    | name :: _ :: _ => some (name, .directory)
  else none

/-- The entries of a directory, if a path leads to one. -/
def entriesOf? (tree : FileTree) (path : String) : Option (List (String × FileKind)) :=
  (tree.locate? path).bind fun directory =>
    if tree.isDirectory directory then
      let made := tree.directories.filterMap fun other => entryBelow? directory (other ++ [""])
      let held := tree.files.keys.filterMap (entryBelow? directory)
      some ((Table.ofPairs (made ++ held)).filter fun entry => entry.1 != "")
    else none

/-- A tree with the directories along some pieces of a path. -/
def addDirectories (tree : FileTree) (names : List String) : List String → Option FileTree
  | [] => some tree
  | piece :: rest =>
    if piece = "" || piece = "." then addDirectories tree names rest
    else if piece = ".." then addDirectories tree (around names) rest
    else
      let inner := names ++ [piece]
      if tree.files.has inner || !isName piece then none
      else
        addDirectories { tree with directories := inner :: tree.directories } inner rest

/-- A tree with a file written, if its directory is there. -/
def writeFile? (tree : FileTree) (path contents : String) : Option FileTree :=
  (tree.locate? path).bind fun names =>
    if tree.isDirectory names then none
    else some { tree with files := tree.files.put names contents.toUTF8 }

/-- Replace the tree if there is another. -/
def replace (next : Option FileTree) : StateM FileTree Bool := do
  match next with
  | some tree => set tree; pure true
  | none => pure false

/-- The file system of a tree with a limit on the directories inside each other. -/
def system (depth : Nat) : FileSystem (StateM FileTree) where
  kind path := do pure ((← get).kindOf path)
  read path := do
    let tree ← get
    pure ((tree.locate? path).bind tree.files.get?)
  entries path := do pure ((← get).entriesOf? path)
  makeDirectories path := do
    let tree ← get
    if path = "" then pure true else replace ((pieces? path).bind (tree.addDirectories []))
  write path contents := do replace ((← get).writeFile? path contents)
  depth

/-- The greatest number of directories around a file of a tree. -/
def depthOf (tree : FileTree) : Nat := (tree.files.keys.map List.length).foldl max 0

/-! ## Tests -/

section Tests

/-- A tree with two files. -/
def sample : FileTree :=
  { files := [(["a.json"], "1".toUTF8), (["r", "b.json"], "2".toUTF8)] }

example : sample.kindOf "./r/../a.json" = some .file := by decide +kernel
example : sample.kindOf "a.json/" = none ∧ sample.kindOf "x/../a.json" = none := by decide +kernel
example : sample.kindOf "r/" = some .directory ∧ sample.kindOf ".." = some .directory := by
  decide +kernel
example : sample.kindOf "../a.json" = none ∧ sample.kindOf "r/../r/b.json" = some .file := by
  decide +kernel
example : sample.entriesOf? "." = some [("a.json", .file), ("r", .directory)] := by decide +kernel
example : sample.entriesOf? "a.json" = none := by decide +kernel
example : (sample.addDirectories [] ["a.json", "x"]).isNone := by decide +kernel
example : (sample.addDirectories [] [String.ofList (List.replicate 256 'x')]).isNone := by
  decide +kernel
example : (pieces? "r/\x00").isNone := by decide +kernel
example : (sample.writeFile? "r" "").isNone ∧ (sample.writeFile? "q/x" "").isNone := by
  decide +kernel

end Tests

end FileTree

end SchemaDoc
