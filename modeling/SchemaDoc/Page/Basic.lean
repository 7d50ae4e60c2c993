import SchemaDoc.Documentation.Block
import SchemaDoc.Table
import SchemaDoc.Text.Percent

/-!
# Pages

A *page* is built from the events of a documentation.  It has titles, texts and
headings.  An entry becomes a heading under its *full name*, the dotted names of the
entries around it and its own.  Each full name has one anchor, which belongs to the
first heading of that name.

References to definitions read better without the path to them, so `/$defs/` is left
out of every name and signature.
-/

namespace SchemaDoc

/-- A heading of a page. -/
structure Heading where
  /-- The number of entries around it. -/
  depth : Nat
  /-- The anchor, unless an earlier heading has it. -/
  anchor : Option String
  required : Bool
  deprecated : Bool
  /-- What stands before the name, with a dot between; empty if nothing does. -/
  owner : String
  name : String
  /-- What parts the name from the signature. -/
  separator : String
  /-- The type and the default, as far as the entry shows them. -/
  signature : String
  /-- The full name of the entry around it; empty if there is none. -/
  scope : String
deriving DecidableEq, Repr

/-- A part of a page. -/
inductive Page.Item where
  | title (text : String)
  | text (text : String)
  | heading (heading : Heading)
deriving DecidableEq, Repr

/-- A page that is being written. -/
structure Page where
  items : List Page.Item := []
  /-- The full names of the entries that are entered, innermost first. -/
  entered : List String := []
  /-- The anchors of full names. -/
  anchors : Table String String := []
deriving Repr

namespace Page

/-! ## Names and anchors -/

/-- What is left of a text without a stretch that comes again and again, after some
characters that are left out already. -/
def withoutAfter (stretch : List Char) : Nat → List Char → List Char
  | _, [] => []
  | taken + 1, _ :: rest => withoutAfter stretch taken rest
  | 0, c :: rest =>
    if stretch.isPrefixOf (c :: rest) then withoutAfter stretch (stretch.length - 1) rest
    else c :: withoutAfter stretch 0 rest
termination_by structural _ text => text

/-- A text without the path to definitions. -/
def withoutDefs (text : String) : String :=
  String.ofList (withoutAfter "/$defs/".toList 0 text.toList)

/-- Whether a character stands for itself in an anchor. -/
def inAnchor (c : Char) : Bool := c.isAlphanum || c == '*' || c == '-' || c == '.' || c == '_'

/-- The anchor of a full name: letters and digits as they are, a plus sign for a
blank, and all else encoded. -/
def anchorOf (fullName : String) : String :=
  String.ofList (fullName.toList.flatMap fun c =>
    if c = ' ' then ['+'] else Text.percentEncodeChar inAnchor c)

/-- Names with a dot between them, without those that are empty. -/
def dotted (names : List String) : String :=
  String.intercalate "." (names.filter fun name => name != "")

/-- The anchor of a name, looked up inside a full name first. -/
def resolve (page : Page) (name scope : String) : Option String :=
  (if scope = "" then none else page.anchors.get? (scope ++ "." ++ name)).or
    (page.anchors.get? name)

/-! ## Events -/

/-- The full name of the innermost entry. -/
def scope (page : Page) : String := page.entered.headD ""

/-- The full name of an entry inside another.  The name of an entry counts even if
it is empty. -/
def fullNameOf (scope owner name : String) : String :=
  let around := dotted [scope, owner]
  if around = "" then name else around ++ "." ++ name

/-- The heading of an entry, with or without its anchor. -/
def headingOf (page : Page) (entry : Entry) (owner name : String) (anchor : Option String) :
    Heading :=
  let (separator, signature) :=
    match entry.signature, entry.default with
    | some signature, some default => (": ", signature ++ " = " ++ default)
    | some signature, none => (": ", signature)
    | none, some default => (" = ", default)
    | none, none => ("", "")
  { depth := page.entered.length
    anchor
    required := entry.required
    deprecated := entry.deprecated
    owner
    name
    separator
    signature := withoutDefs signature
    scope := page.scope }

/-- Enter an entry. -/
def enter (page : Page) (entry : Entry) : Page :=
  let owner := withoutDefs (entry.owner.getD "")
  let name := withoutDefs entry.name
  let fullName := fullNameOf page.scope owner name
  let anchor := anchorOf fullName
  if page.anchors.has fullName then
    { page with
      items := page.items ++ [.heading (page.headingOf entry owner name none)]
      entered := fullName :: page.entered }
  else
    { items := page.items ++ [.heading (page.headingOf entry owner name (some anchor))]
      entered := fullName :: page.entered
      anchors := page.anchors.put fullName anchor }

/-- A page after one more event.  To leave where nothing is entered does nothing. -/
def step (page : Page) : Event → Page
  | .title text => { page with items := page.items ++ [.title text] }
  | .text text => { page with items := page.items ++ [.text text] }
  | .enter entry => page.enter entry
  | .leave => { page with entered := page.entered.tail }

/-- The page of some events. -/
def ofEvents (events : List Event) : Page := events.foldl step {}

/-! ## Tests -/

example : withoutDefs "R#/$defs/A | R#/$defs//$defs/B" = "R#A | R#B" := by decide +kernel
example : anchorOf "a b.c/é*" = "a+b.c%2F%C3%A9*" := by decide +kernel
example : (ofEvents [.enter { kind := .setting, name := "A" }, .enter { kind := .setting, name := "B" },
    .leave, .leave, .leave, .enter { kind := .setting, name := "B" }]).anchors.keys
    = ["A", "A.B", "B"] := by decide +kernel

end Page

end SchemaDoc
