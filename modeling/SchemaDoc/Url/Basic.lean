import SchemaDoc.Table
import SchemaDoc.Text.Percent

/-!
# URLs

A URL is its parts, each in the form in which it is written: percent-encoded, the
scheme in lower case, the host as the host parser gives it.  `Url.render` puts the
parts together.

A scheme is *special* if it always has a host and a path; the special schemes but
`file` have a default port, which a URL never shows.

A path is a text: it is empty, or begins with a slash, or it is plain, as in
`mailto:a@b`, where no authority stands before it.
-/

namespace SchemaDoc

/-- Who asks and where, between two slashes and the path. -/
structure Url.Authority where
  /-- The user, encoded; empty if there is none. -/
  username : List Char := []
  /-- The password, encoded; empty if there is none. -/
  password : List Char := []
  /-- The host, which may be empty. -/
  host : List Char := []
  /-- The port, unless it is the default of the scheme. -/
  port : Option Nat := none
deriving DecidableEq, Repr

/-- A URL. -/
structure Url where
  /-- The scheme, in lower case. -/
  scheme : String
  authority : Option Url.Authority := none
  path : List Char
  query : Option (List Char) := none
  fragment : Option (List Char) := none
deriving DecidableEq, Repr

namespace Url

/-! ## Schemes -/

/-- The special schemes with their default ports. -/
def specialSchemes : Table String (Option Nat) :=
  [("ftp", some 21), ("file", none), ("http", some 80), ("https", some 443), ("ws", some 80),
    ("wss", some 443)]

/-- Whether a scheme is special. -/
def isSpecial (scheme : String) : Bool := specialSchemes.has scheme

/-- The default port of a scheme. -/
def defaultPort (scheme : String) : Option Nat := (specialSchemes.get? scheme).join

/-! ## What is encoded

Each part of a URL has characters that may not stand in it; control characters and
everything beyond ASCII may stand in none. -/

/-- Whether a character may stand where only some others are excluded. -/
def mayStand (excluded : String) (c : Char) : Bool :=
  0x20 ≤ c.toNat && c.toNat ≤ 0x7E && !excluded.toList.contains c

/-- What may stand in a plain path, or in the host of a scheme that is not special. -/
def inPlain : Char → Bool := mayStand ""

/-- What may stand in a fragment. -/
def inFragment : Char → Bool := mayStand " \"<>\x60"

/-- What may stand in a query. -/
def inQuery (scheme : String) : Char → Bool :=
  if isSpecial scheme then mayStand " \"#<>\x27" else mayStand " \"#<>"

/-- What may stand in a path. -/
def inPath : Char → Bool := mayStand " \"#<>?\x60\x7b\x7d"

/-- What may stand in a user name or a password. -/
def inUserinfo : Char → Bool := mayStand " \"#<>?\x60\x7b\x7d/:;=@[\\]^|"

/-! ## The text of a URL -/

/-- The user and the password, before the host. -/
def Authority.renderUserinfo (authority : Authority) : List Char :=
  if authority.username.isEmpty && authority.password.isEmpty then []
  else
    authority.username ++
      (if authority.password.isEmpty then [] else ':' :: authority.password) ++ ['@']

/-- The text of an authority. -/
def Authority.render (authority : Authority) : List Char :=
  authority.renderUserinfo ++ authority.host ++
    match authority.port with
    | some port => ':' :: (toString port).toList
    | none => []

/-- What stands between the scheme and the path.  A path that begins like an authority
is kept apart from the scheme by a dot. -/
def renderAuthority (url : Url) : List Char :=
  match url.authority, url.path with
  | some authority, _ => '/' :: '/' :: authority.render
  | none, '/' :: '/' :: _ => ['/', '.']
  | none, _ => []

/-- A part after the mark that announces it. -/
def renderPart (mark : Char) : Option (List Char) → List Char
  | some text => mark :: text
  | none => []

/-- The text of a URL. -/
def render (url : Url) : String :=
  String.ofList (url.scheme.toList ++ ':' :: (url.renderAuthority ++ url.path ++
    renderPart '?' url.query ++ renderPart '#' url.fragment))

/-- Whether nothing is relative to a URL: its path is plain. -/
def isPlain (url : Url) : Bool := url.authority.isNone && url.path.head? != some '/'

/-! ## Tests -/

example : render
    { scheme := "https", authority := some { host := "example.com".toList },
      path := "/a.json".toList, fragment := some "/b".toList }
    = "https://example.com/a.json#/b" := by decide +kernel
example : render { scheme := "urn", path := "a:b".toList, fragment := some [] } = "urn:a:b#" := by
  decide
example : render { scheme := "a", path := "//b".toList } = "a:/.//b" := by decide
example : Authority.render { username := ['u'], password := ['p'], host := ['h'], port := some 8 }
    = "u:p@h:8".toList := by decide +kernel

end Url

end SchemaDoc
