import SchemaDoc.LoadError
import SchemaDoc.Registry.Pointer
import SchemaDoc.Uri

/-!
# Registries

A *registry* keeps documents under names, and the places of the anchors inside
them.  A *resource* is a document or a part of one that has a name of its own.  A
registry is filled once and then only read.
-/

namespace SchemaDoc

/-- A document or a part of one, with its own name if it declares one. -/
structure Resource where
  /-- What is registered. -/
  contents : Json
  /-- The name that it declares, without a fragment. -/
  id : Option String
deriving Repr, Inhabited

namespace Resource

/-- A document as a resource. -/
def ofContents (contents : Json) : Resource :=
  ⟨contents, contents.declaredId?.map fun id => (Uri.defrag id).1⟩

/-- The name that a resource goes by: the one it declares, else the one under which it is
registered. -/
def nameAt (resource : Resource) (uri : String) : String := resource.id.getD uri

/-- The value that a pointer addresses in a resource.  Errors give the name under
which the resource was asked for. -/
def follow (resource : Resource) (uri pointer : String) : Except LoadError Json :=
  match Pointer.follow resource.contents pointer with
  | .ok value => .ok value
  | .error .nowhere => .error (.pointerToNowhere uri pointer)
  | .error .innerResource => .error (.malformedReference uri pointer .innerResource)

end Resource

/-- The place of an anchor. -/
structure AnchorPlace where
  /-- The name of the resource. -/
  resource : String
  /-- The pointer to the value in it. -/
  pointer : String
deriving DecidableEq, Repr

/-- Documents under names, and anchors in them. -/
structure Registry where
  resources : Table String Resource := []
  /-- The places of anchors, under the name of the resource and of the anchor. -/
  anchors : Table (String × String) AnchorPlace := []
deriving Repr, Inhabited

namespace Registry

/-- Register a document. -/
def register (registry : Registry) (uri : String) (contents : Json) : Registry :=
  { registry with resources := registry.resources.put uri (.ofContents contents) }

/-- The resource under a name. -/
def get (registry : Registry) (uri : String) : Except LoadError Resource :=
  match registry.resources.get? uri with
  | some resource => .ok resource
  | none => .error (.unretrievable uri)

/-- The resource in which an anchor of some name was first recorded. -/
def anchorOwner? (registry : Registry) (name : String) : Option String :=
  (registry.anchors.keys.find? fun key => key.2 == name).map Prod.fst

/-- The value at an anchor of a resource. -/
def anchor (registry : Registry) (uri name : String) : Except LoadError Json :=
  match registry.anchors.get? (uri, name) with
  | some place => do
    let resource ← registry.get place.resource
    resource.follow place.resource place.pointer
  | none =>
    match registry.anchorOwner? name with
    | some owner => .error (.malformedReference uri name (.anchorElsewhere owner))
    | none => .error (.noSuchAnchor uri name)

end Registry

end SchemaDoc
