import SchemaDoc.Url.Host
import SchemaDoc.Url.Path

/-!
# Reading a URL

A text is read against a base URL or against none.  The fragment begins at the first
`#` and the query at the first `?` before it, whatever stands around them, so a text is
first cut into `Reference` and each piece is then read by itself.  The piece between
scheme and query is an authority and a path, or a path alone, depending on its slashes
and on the scheme.  At the start of a relative path a backslash counts as a slash.

`Url.resolve?` gives nothing for a text that is no URL and none relative to the
base.
-/

namespace SchemaDoc.Url

open Text (cut? cutLast? percentEncode)

/-! ## The pieces of a text -/

/-- A text cut into pieces that are not read yet. -/
structure Reference where
  /-- The scheme in lower case. -/
  scheme : Option String
  /-- What stands between the scheme and the query. -/
  body : List Char
  query : Option (List Char)
  fragment : Option (List Char)

/-- Whether a character may stand in a scheme after its first letter. -/
def isSchemeChar (c : Char) : Bool := c.isAlphanum || c == '+' || c == '-' || c == '.'

/-- The scheme at the start of a text, in lower case, and what follows the colon. -/
def cutScheme? (text : List Char) : Option (String × List Char) :=
  match text, cut? ':' text with
  | c :: _, some (name, rest) =>
    if c.isAlpha && name.all isSchemeChar then some (String.ofList (name.map Char.toLower), rest)
    else none
  | _, _ => none

/-- Blanks and control characters, which are dropped at both ends of a text. -/
def isSpace (c : Char) : Bool := c.toNat ≤ 0x20

/-- A text without what does not count: blanks at its ends, and line breaks and tabs
anywhere. -/
def strip (text : List Char) : List Char :=
  let inner := ((text.dropWhile isSpace).reverse.dropWhile isSpace).reverse
  inner.filter fun c => c != '\t' && c != '\n' && c != '\r'

namespace Reference

/-- The pieces of a text without a query and a fragment, and these two. -/
def ofBody (query fragment : Option (List Char)) (text : List Char) : Reference :=
  match cutScheme? text with
  | some (scheme, body) => ⟨some scheme, body, query, fragment⟩
  | none => ⟨none, text, query, fragment⟩

/-- The pieces of a text without a fragment, and that. -/
def ofMain (fragment : Option (List Char)) (text : List Char) : Reference :=
  match cut? '?' text with
  | some (main, query) => ofBody (some query) fragment main
  | none => ofBody none fragment text

/-- The pieces of a text. -/
def ofText (text : List Char) : Reference :=
  match cut? '#' (strip text) with
  | some (main, fragment) => ofMain (some fragment) main
  | none => ofMain none (strip text)

end Reference

/-- Whether nothing follows the body. -/
def Reference.endsInBody (reference : Reference) : Bool :=
  reference.query.isNone && reference.fragment.isNone

/-! ## Authorities -/

/-- A text cut at the first colon outside brackets. -/
def cutPort (inside : Bool) : List Char → List Char × Option (List Char)
  | [] => ([], none)
  | c :: rest =>
    if c == ':' && !inside then ([], some rest)
    else
      let (host, port) := cutPort (if c == '[' then true else if c == ']' then false else inside) rest
      (c :: host, port)

/-- The port that digits write, unless it is the default of the scheme. -/
def readPort? (scheme : String) (digits : List Char) : Option (Option Nat) :=
  if digits.isEmpty then some none
  else
    let port := Host.ofDigits 10 (digits.map Text.digitValue)
    if 65535 < port then none
    else some (if defaultPort scheme = some port then none else some port)

/-- The user and the password before the last `@` of a text, and what follows it. -/
def cutUserinfo (text : List Char) : Option (List Char) × List Char :=
  match cutLast? '@' text with
  | some (userinfo, site) => (some userinfo, site)
  | none => (none, text)

/-- The user and the password, encoded, in an authority without a host. -/
def readUserinfo (userinfo : List Char) : Authority :=
  match cut? ':' userinfo with
  | some (username, password) =>
    { username := percentEncode inUserinfo username
      password := percentEncode inUserinfo password }
  | none => { username := percentEncode inUserinfo userinfo }

/-- The URL of what follows the two slashes, with which the text ends or not.  An empty
host has neither a user nor a port, and behind a lone `@` it stands only at the end. -/
def ofSite? (scheme : String) (text : List Char) (isEnd : Bool) : Option Url := do
  let special := isSpecial scheme
  let (userinfo, site) := cutUserinfo (text.takeWhile (!isSlash special ·))
  let rest := text.dropWhile (!isSlash special ·)
  let authority := readUserinfo (userinfo.getD [])
  let (name, afterColon) := cutPort false site
  let digits := (afterColon.getD []).takeWhile Char.isDigit
  let path := (afterColon.getD []).dropWhile Char.isDigit ++ rest
  if name.isEmpty && (special || afterColon.isSome || !authority.renderUserinfo.isEmpty) then none
  else if userinfo = some [] && site.isEmpty && !(rest.isEmpty && isEnd) then none
  else if path.head?.any (!isSlash true ·) then none
  else
    some {
      scheme
      authority := some { authority with
        host := ← Host.parse? special name
        port := ← readPort? scheme digits }
      path := (rootedTrail scheme path).path }

/-! ## Files -/

/-- A file with a host, which may be empty, and a path. -/
def file (host path : List Char) : Url := { scheme := "file", authority := some { host }, path }

/-- The host of a file. -/
def fileHost (url : Url) : List Char := (url.authority.map Authority.host).getD []

/-- The file of what follows the two slashes.  A drive is no host, `localhost` is the
empty one, and a path that begins with a drive has none. -/
def fileOfSite? (text : List Char) : Option Url := do
  let name := text.takeWhile (!isSlash true ·)
  let rest := text.dropWhile (!isSlash true ·)
  if (driveLetter? name).isSome then some (file [] (filePathAfter ['/'] text))
  else if name.isEmpty then some (file [] (filePathAfter ['/'] rest))
  else
    let host ← Host.parse? true name
    if host = "localhost".toList then some (file [] (filePathAfter ['/'] rest))
    else
      let trail := rootedTrail "file" rest
      some (file (if startsWithDrive (trail.path.drop 1) then [] else host) trail.ofFile)

/-- The drive that the path of a file begins with, if it begins with one. -/
def leadingDrive (path : List Char) : List Char :=
  let name := (path.drop 1).takeWhile (· != '/')
  if isDrive name then '/' :: name else []

/-- The file of a text that begins with one slash.  It is on the drive of the other file
or on its host, unless it has a drive itself. -/
def fileFromRoot (base : Option Url) (text : List Char) : Url :=
  match base with
  | some base =>
    let drive := leadingDrive base.path
    if startsWithDrive (text.drop 1) then file [] (filePathAfter [] text)
    else if drive.isEmpty then file base.fileHost (filePathAfter [] text)
    else file [] (filePathAfter drive text)
  | none => file [] (filePathAfter [] text)

/-- The file of a text, relative to another file or to none.  Without a text it is
the other file with its query. -/
def fileOf? (base : Option Url) (text : List Char) : Option Url :=
  match text, base with
  | [], some base => some base
  | a :: rest, _ =>
    if isSlash true a then
      match rest with
      | b :: more => if isSlash true b then fileOfSite? more else some (fileFromRoot base text)
      | [] => some (fileFromRoot base text)
    else
      match base with
      | some base =>
        if startsWithDrive text then some (file [] (filePathAfter ['/'] text))
        else some (file base.fileHost (filePathAfter (folder true base.path) text))
      | none => some (file [] (filePathAfter ['/'] text))
  | [], none => some (file [] ['/'])

/-! ## URLs -/

/-- The URL of a text without a scheme, relative to a base with a path that is not
plain.  Without a text it is the base with its query. -/
def relative? (base : Url) (text : List Char) (isEnd : Bool) : Option Url :=
  let moved (path : List Char) : Option Url := some { base with path, query := none }
  match text with
  | [] => some base
  | '/' :: '/' :: rest => ofSite? base.scheme rest isEnd
  | a :: rest =>
    if isSlash true a then
      if rest.head?.any (isSlash true) then
        ofSite? base.scheme (rest.dropWhile (isSlash true)) isEnd
      else moved (pathAfter base.scheme ['/'] rest)
    else
      let start := folder false base.path
      moved (pathAfter base.scheme (if start.isEmpty then ['/'] else start) text)

/-- The URL of a text with a scheme, all but query and fragment. -/
def absolute? (base : Option Url) (scheme : String) (text : List Char) (isEnd : Bool) :
    Option Url :=
  let sibling := base.filter fun base => base.scheme = scheme
  if scheme = "file" then fileOf? sibling text
  else if isSpecial scheme then
    match sibling with
    | some base =>
      if (text.takeWhile (isSlash true)).length < 2 then relative? base text isEnd
      else ofSite? scheme (text.dropWhile (isSlash true)) isEnd
    | none => ofSite? scheme (text.dropWhile (isSlash true)) isEnd
  else
    match text with
    | '/' :: '/' :: rest => ofSite? scheme rest isEnd
    | '/' :: rest => some { scheme, path := pathAfter scheme ['/'] rest }
    | _ => some { scheme, path := percentEncode inPlain text }

/-- The URL of a reference, all but its own query and fragment. -/
def main? (base : Option Url) (reference : Reference) : Option Url :=
  match reference.scheme, base with
  | some scheme, _ => absolute? base scheme reference.body reference.endsInBody
  | none, none => none
  | none, some base =>
    if base.isPlain then
      if reference.body.isEmpty && reference.query.isNone && reference.fragment.isSome then some base
      else none
    else if base.scheme = "file" then fileOf? (some base) reference.body
    else relative? base reference.body reference.endsInBody

/-- The URL that a text denotes, read against a base if there is one.  The fragment
is that of the text alone. -/
def resolve? (base : Option Url) (text : String) : Option Url :=
  let reference := Reference.ofText text.toList
  (main? base reference).map fun url =>
    { url with
      query := (reference.query.map (percentEncode (inQuery url.scheme))).or url.query
      fragment := reference.fragment.map (percentEncode inFragment) }

/-- The URL that a text denotes by itself. -/
def parse? (text : String) : Option Url := resolve? none text

/-! ## Tests -/

section Tests

/-- The text of the URL that a reference denotes against a base. -/
def against (base reference : String) : Option String := do
  (← resolve? (some (← parse? base)) reference).render

/-- The path, the query and the fragment that a reference has against a base. -/
def partsAgainst (base reference : String) : Option String := do
  let url ← resolve? (some (← parse? base)) reference
  String.ofList (url.path ++ renderPart '?' url.query ++ renderPart '#' url.fragment)

example : (parse? "HTTPS:EXAMPLE.com:443/schemas/./x/../root.json").map render
    = some "https://example.com/schemas/root.json" := by decide +kernel
example : (parse? "http:").isNone ∧ (parse? "x y").isNone ∧ (parse? "").isNone := by
  decide +kernel
example : against "https://example.com/schemas/root.json" "common.json"
    = some "https://example.com/schemas/common.json" := by decide +kernel
example : partsAgainst "ws:e/a/b?q#f" "../c d#é" = some "/c%20d#%C3%A9" := by decide +kernel
example : partsAgainst "ws:e/a/b?q" "#f" = some "/a/b?q#f" := by decide +kernel
example : partsAgainst "ws:u:p@h:8443/d/" "//host/p" = some "/p" := by decide +kernel
example : partsAgainst "ws:e/a?q" "ws:#f" = some "/a?q#f" := by decide +kernel
example : against "ws:e/a" "///p" = none ∧ partsAgainst "ws:e/a" "\\/h/p" = some "/p" := by
  decide +kernel
example : against "mailto:a@b" "x" = none := by decide +kernel
example : partsAgainst "file:/C:/a/b" "/x" = some "/C:/x" := by decide +kernel
example : partsAgainst "file:/a/b" "D|/x" = some "/D:/x" := by decide +kernel
example : against "a:/b" "..//c" = some "a:/.//c" := by decide +kernel
example : against "a:/b/c" "\\x" = some "a:/x" := by decide +kernel

end Tests

end SchemaDoc.Url
