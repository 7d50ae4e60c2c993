import SchemaDoc.Schema.Compile
import SchemaDoc.Session.Basic

/-!
# Loading a type

Loading a name compiles the schema behind it, and the schemas behind all references
in that, unless they are compiled already.  A name that is met while it is being
compiled is not compiled again: a type of any value stands in for it, and the name
is *recursive* from then on.

How a reference inside a schema is loaded is a parameter of `loadWith`, which is one
step of the recursion.  `load` takes as many steps as there are pairs of a resource and a
text of a reference, and two more.  Every step but the last compiles another name, and a
name below the first is determined by the resource in which a reference stands and by its
text, so there is always a step left.
-/

namespace SchemaDoc

namespace Session

/-! ## References -/

/-- Run a computation with a name being compiled inside a resource.  Both are taken
back whether it fails or not. -/
def inside {α : Type} (id resource : String) (action : Loading α) : Loading α := fun session =>
  let (result, after) := action (session.enter id resource)
  (result, after.leave id)

/-- The name that a reference refers to, given the type of its target.  A target without
a name is referred to by the text of the reference. -/
def targetName (text : String) (target : Ty) : String := if target.id = "" then text else target.id

/-- The type of a reference whose target is known.  While the target is being compiled
nothing is known of its settings. -/
def typeOf (session : Session) (reference : Schema.Reference) (target : Ty) : Ty :=
  let id := targetName reference.text target
  let scope := if session.compiling.contains id then {} else target.annotations.scope
  (reference.overlay.apply (.reference id)).withScope scope

/-- The type of a reference, given how its target is loaded. -/
def referTo (load : String → Loading Ty) (reference : Schema.Reference) : Loading Ty := do
  let target ← load reference.text
  modify (·.countUse (targetName reference.text target))
  pure ((← get).typeOf reference target)

/-! ## Loading -/

/-- The type of a name, given how the names in its schema are loaded. -/
def loadWith (next : String → Loading Ty) (uri : String) : Loading Ty := do
  let session ← get
  let place ← session.registry.placeOf session.base uri
  match session.get? place.id with
  | some ty => pure ty
  | none =>
    if session.compiling.contains place.id then
      modify (·.markRecursive place.id)
      pure (Ty.any.withId place.id)
    else
      modify (·.beginCount place.id)
      let contents ← session.registry.contentsAt place
      let schema := Schema.ofJson session.keyword contents
      let ty ← inside place.id place.name (schema.compile (referTo next))
      modify (·.keep place.id (ty.withId place.id))
      pure (ty.withId place.id)

/-- Loading in a limited number of steps. -/
def loadWithin : Nat → String → Loading Ty
  | 0, uri => throw (.unretrievable uri)
  | steps + 1, uri => loadWith (loadWithin steps) uri

/-- The text of the reference that a member is, if it is one. -/
def ownReferenceText (key : String) (value : Json) : List String :=
  match key, value with
  | "$ref", .string text => [text]
  | _, _ => []

mutual

/-- The texts of the references in a value. -/
def referenceTexts : Json → List String
  | .object members => memberReferenceTexts members
  | .array items => itemReferenceTexts items
  | _ => []
termination_by structural value => value

/-- The texts of the references in some members. -/
def memberReferenceTexts : List (String × Json) → List String
  | [] => []
  | (key, value) :: rest =>
    ownReferenceText key value ++ (referenceTexts value ++ memberReferenceTexts rest)
termination_by structural members => members

/-- The texts of the references in some values. -/
def itemReferenceTexts : List Json → List String
  | [] => []
  | item :: rest => referenceTexts item ++ itemReferenceTexts rest
termination_by structural items => items

end

/-- The texts of the references in a registry. -/
def textsOf (registry : Registry) : List String :=
  registry.resources.values.flatMap fun resource => referenceTexts resource.contents

/-- How many steps loading may take. -/
def steps (registry : Registry) : Nat :=
  registry.resources.length * (textsOf registry).length + 2

/-- Load a name. -/
def load (session : Session) (uri : String) : Except LoadError Ty × Session :=
  loadWithin (steps session.registry) uri session

/-- The session after loading some names, whether they load or not. -/
def loadAll (session : Session) (uris : List String) : Session :=
  uris.foldl (fun session uri => (session.load uri).2) session

/-! ## Tests -/

section Tests

/-- A session over one document. -/
def ofDocument (contents : Json) : Session :=
  { registry := (Registry.register {} "Root" contents).crawl }

/-- An object type with a reference to itself and two to another type. -/
def sampleSchema : Json :=
  .object [("type", .string "object"), ("properties", .object [
      ("self", .object [("$ref", .string "#")]),
      ("a", .object [("$ref", .string "#/$defs/T")]),
      ("b", .object [("$ref", .string "Root#/$defs/T"), ("mark", .bool true)])]),
    ("$defs", .object [("T", .object [("type", .string "string")])])]

/-- The session after loading the sample. -/
def sampleSession : Session := ((ofDocument sampleSchema).load "Root").2

example : sampleSession.cache.keys = ["Root#/$defs/T", "Root"] := by decide +kernel
example : sampleSession.recursive = ["Root"] := by decide +kernel
example : sampleSession.useCount "Root#/$defs/T" = 2 := by decide +kernel
example : sampleSession.canInline "Root#/$defs/T" = false := by decide +kernel
example : (sampleSession.bases, sampleSession.compiling) = ([], []) := by decide +kernel

end Tests

end Session

end SchemaDoc
