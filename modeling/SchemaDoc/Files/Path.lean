import SchemaDoc.Text.Split

/-!
# Paths

A path is a text of names with slashes between them.  Slashes that follow each other
count as one, and so does a slash at the end count for nothing, and the name `.` is
only meant at the start of a path.
-/

namespace SchemaDoc.Path

open Text (splitOn)

/-- Whether a path begins at the root of all files. -/
def isAbsolute (path : String) : Bool := path.toList.head? = some '/'

/-- The names of a path that count. -/
def names (path : String) : List String :=
  let pieces := (splitOn '/' path.toList).map String.ofList
  let isDot (name : String) : Bool := name == "."
  let dot := if pieces.head?.any isDot then ["."] else []
  dot ++ (pieces.filter fun name => name != "" && !isDot name)

/-- The last name of a path, unless the path ends in a folder that it does not
name. -/
def fileName? (path : String) : Option String :=
  (names path).getLast?.filter fun name => name != "." && name != ".."

/-- The characters of a path, last first, without a name that ends in a slash or
counts for nothing. -/
def trimReversed : List Char → List Char
  | '/' :: rest => trimReversed rest
  | '.' :: rest => if rest.head? = some '/' then trimReversed rest else '.' :: rest
  | cs => cs

/-- What stands before the last name of a path.  A path without a name stands in no
folder. -/
def parent? (path : String) : Option String :=
  if (names path).isEmpty then none
  else
    let withoutName := (trimReversed path.toList.reverse).dropWhile (· != '/')
    match trimReversed withoutName with
    | [] => some (if isAbsolute path then "/" else "")
    | parent => some (String.ofList parent.reverse)

/-- A path with one more name. -/
def join (path name : String) : String :=
  if path = "" || path.toList.getLast? = some '/' then path ++ name else path ++ "/" ++ name

/-! ## Tests -/

example : fileName? "r/b.json" = some "b.json" := by decide +kernel
example : fileName? "r//b/./" = some "b" := by decide +kernel
example : fileName? ".." = none ∧ fileName? "." = none ∧ fileName? "" = none := by decide +kernel
example : parent? "deep/er/out.json" = some "deep/er" := by decide +kernel
example : parent? "a/./x/" = some "a" ∧ parent? "x" = some "" ∧ parent? "./x" = some "." := by
  decide +kernel
example : parent? "/x" = some "/" ∧ parent? "/" = none ∧ parent? "" = none := by decide +kernel

end SchemaDoc.Path
