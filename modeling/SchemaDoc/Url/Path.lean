import SchemaDoc.Url.Basic
import SchemaDoc.Text.Split

/-!
# Paths of URLs

The path of a URL is read name by name onto a path that is there already.  A name is
encoded and written behind it, with a slash unless it is the last; `.` stays where it
is and `..` goes up.

The path of a file may begin with a *drive*, a letter and a colon: `..` does not leave
a drive, and a bar after the letter is read as a colon.  `Trail.ofFile` drops the empty
names at the start of such a path.

While it is read a path is held from its end to its start, as a `Trail`, so that each
step works at its head.
-/

namespace SchemaDoc.Url

open Text (splitWhere percentEncode)

/-- Whether a character separates the names of a path. -/
def isSlash (special : Bool) (c : Char) : Bool := c == '/' || (special && c == '\\')

/-- A name with its encoded dots read. -/
def readDots : List Char → List Char
  | '%' :: '2' :: e :: rest =>
    if e == 'e' || e == 'E' then '.' :: readDots rest else '%' :: '2' :: e :: readDots rest
  | c :: rest => c :: readDots rest
  | [] => []

/-! ## Drives -/

/-- The letter of a drive, which a colon or a bar marks. -/
def driveLetter? : List Char → Option Char
  | [letter, mark] => if letter.isAlpha && (mark == ':' || mark == '|') then some letter else none
  | _ => none

/-- Whether a name is a drive, marked by a colon. -/
def isDrive (name : List Char) : Bool := (driveLetter? name).isSome && name.getLast? == some ':'

/-- Whether a text begins with the name of a drive. -/
def startsWithDrive (text : List Char) : Bool :=
  (driveLetter? (text.take 2)).isSome &&
    match text.drop 2 with
    | [] => true
    | c :: _ => isSlash true c

/-- A drive marked by a colon, and any other name as it is. -/
def markDrive (name : List Char) : List Char :=
  match driveLetter? name with
  | some letter => [letter, ':']
  | none => name

/-! ## Trails -/

/-- A path from its end to its start. -/
abbrev Trail := List Char

namespace Trail

/-- The path of a trail. -/
def path (trail : Trail) : List Char := trail.reverse

/-- The trail of a path. -/
def ofPath (path : List Char) : Trail := path.reverse

/-- What stands behind the last slash. -/
def lastName (trail : Trail) : List Char := (trail.takeWhile (· != '/')).reverse

/-- A trail up to its last slash.  A drive at its end stays. -/
def dropName (isFile : Bool) (trail : Trail) : Trail :=
  if isFile && isDrive trail.lastName then trail else trail.dropWhile (· != '/')

/-- A trail without the slash at its end, unless that is the first one or belongs to a
drive. -/
def dropSlash : Trail → Trail
  | '/' :: inner =>
    if inner.contains '/' && !startsWithDrive (lastName inner) then inner else '/' :: inner
  | trail => trail

/-- A trail with a slash at its end. -/
def close (trail : Trail) : Trail := if trail.head? = some '/' then trail else '/' :: trail

/-- A trail after `..`, the last name of its text or not. -/
def goUp (isFile isLast : Bool) (trail : Trail) : Trail :=
  let up := trail.dropSlash.dropName isFile
  if isLast then up else up.close

/-- Whether a trail is a drive and nothing else. -/
def isOnlyDrive (trail : Trail) : Bool :=
  match trail.path with
  | '/' :: name => isDrive name
  | _ => false

/-- A trail after one more name, the last of its text or not. -/
def enter (isFile : Bool) (trail : Trail) (name : List Char) (isLast : Bool) : Trail :=
  let trail := if isFile && trail.isOnlyDrive && !name.isEmpty then trail.close else trail
  if readDots name = ['.', '.'] then trail.goUp isFile isLast
  else if readDots name = ['.'] then trail.close
  else
    let name := if isFile && trail == ['/'] then markDrive name else name
    let behind := (percentEncode inPath name).reverse ++ trail
    if isLast then behind else '/' :: behind

/-- A trail after some more names. -/
def enterAll (isFile : Bool) (trail : Trail) : List (List Char) → Trail
  | [] => trail
  | [name] => trail.enter isFile name true
  | name :: rest => enterAll isFile (trail.enter isFile name false) rest

/-- A trail after the names of a text. -/
def enterText (scheme : String) (trail : Trail) (text : List Char) : Trail :=
  trail.enterAll (scheme == "file") (splitWhere (isSlash (isSpecial scheme)) text)

/-- The path of a file: without empty names at its start. -/
def ofFile (trail : Trail) : List Char := '/' :: trail.path.dropWhile (· == '/')

end Trail

/-- The path of a text that begins with a slash or is empty.  A special scheme has a
path of at least one slash. -/
def rootedTrail (scheme : String) (text : List Char) : Trail :=
  match text with
  | c :: rest => Trail.enterText scheme ['/'] (if isSlash (isSpecial scheme) c then rest else text)
  | [] => if isSpecial scheme then ['/'] else []

/-- A path after the names of a text, for a scheme other than `file`. -/
def pathAfter (scheme : String) (path text : List Char) : List Char :=
  ((Trail.ofPath path).enterText scheme text).path

/-- The path of a file after the names of a text. -/
def filePathAfter (path text : List Char) : List Char :=
  ((Trail.ofPath path).enterText "file" text).ofFile

/-- A path without its last name. -/
def folder (isFile : Bool) (path : List Char) : List Char :=
  ((Trail.ofPath path).dropName isFile).path

/-! ## Tests -/

section Tests

/-- The path of a file after the names of a text. -/
def fileTest (path text : String) : String := String.ofList (filePathAfter path.toList text.toList)

/-- The path of another URL after the names of a text. -/
def pathTest (path text : String) : String :=
  String.ofList (pathAfter "https" path.toList text.toList)

example : pathTest "/" "a/./b/../c d" = "/a/c%20d" := by decide +kernel
example : pathTest "/a/" "%2E%2e/x" = "/x" ∧ pathTest "/a/b/" ".." = "/a/" := by decide +kernel
example : pathTest "/" "a^b\\c" = "/a^b/c" := by decide +kernel
/-- A drive is not left, whatever the scheme. -/
example : pathTest "/C:/" "../x" = "/C:/x" ∧ pathTest "/a/" "../../x" = "/x" := by decide +kernel
example : fileTest "/" "C|/x" = "/C:/x" ∧ fileTest "/" "C|x" = "/C|x" := by decide +kernel
example : fileTest "/C:" "x" = "/C:/x" ∧ fileTest "/a/C:" "../x" = "/a/C:/x" := by decide +kernel
example : fileTest "/" "//x//y" = "/x//y" := by decide +kernel

end Tests

end SchemaDoc.Url
