import SchemaDoc.Registry.Basic

/-!
# Places

A name in a schema means a *place*: a resource, under the name that it goes by, and a
fragment in it.  The name of a place is made of these two, so that a value goes by one
name however the references to it are written.
-/

namespace SchemaDoc

/-- Where a name leads. -/
structure Place where
  resource : Resource
  /-- The name that the resource goes by. -/
  name : String
  fragment : String

namespace Place

/-- The document and the fragment that a name means inside a resource.  A bare fragment
stays in the resource, letter by letter. -/
def locate (base uri : String) : String × String :=
  match uri.toList with
  | '#' :: fragment => (base, String.ofList fragment)
  | _ => Uri.defrag (Uri.join base uri)

/-- The name of the value at a place. -/
def id (place : Place) : String :=
  if place.fragment = "" then place.name else place.name ++ "#" ++ place.fragment

end Place

namespace Registry

/-- The place that a name means inside a resource. -/
def placeOf (registry : Registry) (base uri : String) : Except LoadError Place := do
  let (document, fragment) := Place.locate base uri
  let resource ← registry.get document
  pure ⟨resource, resource.nameAt document, fragment⟩

/-- The value at a place: the one at a pointer, the one at an anchor, or the whole. -/
def contentsAt (registry : Registry) (place : Place) : Except LoadError Json :=
  match place.fragment.toList with
  | [] => .ok place.resource.contents
  | '/' :: _ => place.resource.follow place.name place.fragment
  | _ => registry.anchor place.name place.fragment

/-- A place is found if its document is registered. -/
theorem placeOf_eq_ok_iff {registry : Registry} {base uri : String} {place : Place} :
    registry.placeOf base uri = .ok place ↔
      registry.resources.get? (Place.locate base uri).1 = some place.resource ∧
        place.name = place.resource.nameAt (Place.locate base uri).1 ∧
        place.fragment = (Place.locate base uri).2 := by
  obtain ⟨resource, name, fragment⟩ := place
  simp only [placeOf, get]
  cases registry.resources.get? (Place.locate base uri).1 with
  | none => simp [bind, Except.bind]
  | some found =>
    simp only [bind, Except.bind, pure, Except.pure, Except.ok.injEq, Place.mk.injEq,
      Option.some.injEq]
    constructor
    · rintro ⟨rfl, rfl, rfl⟩
      exact ⟨rfl, rfl, rfl⟩
    · rintro ⟨rfl, rfl, rfl⟩
      exact ⟨rfl, rfl, rfl⟩

end Registry

end SchemaDoc
