import SchemaDoc.Url.Resolve

/-!
# Names of resources

A resource goes by a URL, such as `https://example.com/schemas/root.json`, or by a plain
name, such as `EmmyRc` or `schemas/root.json`.  A reference is joined onto the name
of the resource it stands in.  Between URLs this is the resolution of the URL
standard; a reference to a plain name takes the place of what follows the last slash.

`defrag` parts a name from its fragment.  It never looks inside the fragment.
-/

namespace SchemaDoc.Uri

open Text (cut? cutLast?)

/-- The part before the first `#` and the part after it. -/
def defrag (uri : String) : String × String :=
  match cut? '#' uri.toList with
  | some (document, fragment) => (String.ofList document, String.ofList fragment)
  | none => (uri, "")

/-- A reference joined onto a plain name. -/
def joinName (base reference : String) : String :=
  let document := (defrag base).1
  match reference.toList with
  | '#' :: fragment => document ++ "#" ++ String.ofList fragment
  | '/' :: _ => reference
  | _ =>
    match cutLast? '/' document.toList with
    | some (folder, _) => String.ofList folder ++ "/" ++ reference
    | none => reference

/-- A reference joined onto the name of a resource.  A reference that is a URL by
itself stays as it is written. -/
def join (base reference : String) : String :=
  if reference = "" then base
  else if (Url.parse? reference).isSome then reference
  else
    match (Url.parse? base).bind fun url => Url.resolve? (some url) reference with
    | some url => url.render
    | none => joinName base reference

/-! ## Tests -/

example : defrag "a#/b" = ("a", "/b") := by decide +kernel
example : defrag "#x" = ("", "x") := by decide +kernel
example : join "EmmyRc" "#/$defs/Foo" = "EmmyRc#/$defs/Foo" := by decide +kernel
example : join "schemas/root.json" "common.json#/x" = "schemas/common.json#/x" := by
  decide +kernel
example : join "https://example.com/schemas/root.json" "common.json"
    = "https://example.com/schemas/common.json" := by decide +kernel
example : join "EmmyRc" "https://example.com/a.json#/b" = "https://example.com/a.json#/b" := by
  decide +kernel
example : join "urn:example:foo" "x" = "x" := by decide +kernel

end SchemaDoc.Uri
