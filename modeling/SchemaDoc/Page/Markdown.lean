import SchemaDoc.Page.Basic
import SchemaDoc.Signature.Token

/-!
# A page as Markdown

A heading shows the name in a code span and then the signature.  The names in a
signature that have an anchor are links and everything between them is in code
spans.  Links can lead forward, so a page is only written once it is complete.  At
the end there is an index of all full names in order.
-/

namespace SchemaDoc.Page

/-! ## Code spans -/

/-- A text as a code span.  A text with a grave accent is put between two of them and
a blank. -/
def code (text : String) : String :=
  if text.toList.contains '\x60' then "\x60\x60 " ++ text ++ " \x60\x60"
  else "\x60" ++ text ++ "\x60"

/-- A link to an anchor. -/
def link (name anchor : String) : String := "[" ++ code name ++ "](#" ++ anchor ++ ")"

/-- A stretch of a signature as a code span, with the blanks at its ends outside. -/
def span (stretch : String) : String :=
  let cs := stretch.toList
  match Text.trim cs with
  | [] => stretch
  | inner =>
    let before := cs.takeWhile Text.isBlank
    let after := (cs.reverse.takeWhile Text.isBlank).reverse
    String.ofList before ++ code (String.ofList inner) ++ String.ofList after

/-! ## Signatures and headings -/

/-- The link of a token that is a name with an anchor. -/
def linkOf? (page : Page) (scope : String) : Token → Option String
  | .name name => (page.resolve name scope).map fun anchor => link name anchor
  | _ => none

/-- Tokens as code spans and links, after a stretch that is not written yet. -/
def spans (page : Page) (scope pending : String) : List Token → String
  | [] => span pending
  | token :: rest =>
    match linkOf? page scope token with
    | some text => span pending ++ text ++ spans page scope "" rest
    | none => spans page scope (pending ++ token.display) rest

/-- A signature as code spans and links. -/
def renderSignature (page : Page) (signature scope : String) : String :=
  String.ofList (Text.trim (spans page scope "" (Token.tokenize signature)).toList)

/-- The line of a heading. -/
def renderHeading (page : Page) (heading : Heading) : String :=
  let level := String.ofList (List.replicate (min (heading.depth + 2) 6) '#')
  let anchor :=
    match heading.anchor with
    | some anchor => "<a id=\"" ++ anchor ++ "\"></a>"
    | none => ""
  let shown :=
    if heading.owner = "" then heading.name else heading.owner ++ "." ++ heading.name
  level ++ " " ++ anchor ++ (if heading.required then "*required* " else "") ++ code shown ++
    heading.separator ++ page.renderSignature heading.signature heading.scope ++
    (if heading.deprecated then " *(deprecated)*" else "")

/-! ## The page -/

/-- A part of a page with the empty line after it. -/
def renderItem (page : Page) : Item → String
  | .title heading => "# " ++ heading ++ "\n\n"
  | .text body => String.ofList (Text.trimEnd body.toList) ++ "\n\n"
  | .heading heading => page.renderHeading heading ++ "\n\n"

/-- The full names and their anchors in order. -/
def sortedAnchors (page : Page) : List (String × String) :=
  page.anchors.mergeSort fun a b => a.1 ≤ b.1

/-- The index of all full names, unless there are none. -/
def renderIndex (page : Page) : String :=
  match page.sortedAnchors with
  | [] => ""
  | entries =>
    "# Index\n\n" ++ String.join (entries.map fun (name, anchor) => "- " ++ link name anchor ++ "\n")

/-- The text of a page. -/
def markdown (page : Page) : String :=
  String.join (page.items.map page.renderItem) ++ page.renderIndex

/-! ## Tests -/

section Tests

/-- A page with a link forward. -/
def sample : Page :=
  ofEvents [.enter { kind := .setting, name := "R" },
    .enter { kind := .setting, name := "paths", signature := some "R#/$defs/P[]", deprecated := true },
    .leave, .leave, .title "Types", .enter { kind := .setting, name := "R#/$defs/P" }, .text "x \n"]

example : sample.items.map sample.renderItem
    = ["## <a id=\"R\"></a>\x60R\x60\n\n",
      "### <a id=\"R.paths\"></a>\x60paths\x60: [\x60R#P\x60](#R%23P)\x60[]\x60 *(deprecated)*\n\n",
      "# Types\n\n", "## <a id=\"R%23P\"></a>\x60R#P\x60\n\n", "x\n\n"] := by decide +kernel
example : code "a\x60b" = "\x60\x60 a\x60b \x60\x60" := by decide +kernel

end Tests

end SchemaDoc.Page
