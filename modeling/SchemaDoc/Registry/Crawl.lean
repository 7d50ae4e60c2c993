import SchemaDoc.Registry.Basic

/-!
# Crawling documents

Crawling a document finds the resources that are embedded in it and the anchors, and
makes them known to the registry.  What is found in a value depends on the value and
on the name of the resource it stands in, `findings`, and on nothing else; the
registry then only records it.

Values under the keys of `dataKeys` are data and not schemas, so nothing is found in
them.
-/

namespace SchemaDoc

/-- What a value makes known. -/
inductive Finding where
  /-- A resource embedded under a name. -/
  | resource (uri : String) (contents : Json)
  /-- An anchor and its place. -/
  | anchor (resource name pointer : String)
deriving Repr

namespace Finding

/-- Keys with data under them. -/
def dataKeys : List String := ["default", "const", "enum", "examples"]

/-- The anchor that an object declares. -/
def anchorOf (base pointer : String) (members : Table String Json) : List Finding :=
  match (members.get? "$anchor").bind Json.asString? with
  | some name => [.anchor base name pointer]
  | none => []

/-- The name of the resource that an object begins, if it does. -/
def embedded? (base : String) (isTop : Bool) (value : Json) : Option String :=
  if isTop then none else value.declaredId?.map fun id => (Uri.defrag (Uri.join base id)).1

mutual

/-- What is found in a value at some place of a resource. -/
def findings (base pointer : String) (isTop : Bool) : Json → List Finding
  | .object members =>
    match embedded? base isTop (.object members) with
    | some uri =>
      .resource uri (.object members) :: (anchorOf uri "" members ++ inMembers uri "" members)
    | none => anchorOf base pointer members ++ inMembers base pointer members
  | .array items => inItems base pointer 0 items
  | _ => []
termination_by structural value => value

/-- What is found in the members of an object. -/
def inMembers (base pointer : String) : List (String × Json) → List Finding
  | [] => []
  | (key, value) :: rest =>
    (if key ∈ dataKeys then [] else findings base (Pointer.extend pointer key) false value) ++
      inMembers base pointer rest
termination_by structural members => members

/-- What is found in the items of an array from some position on. -/
def inItems (base pointer : String) (position : Nat) : List Json → List Finding
  | [] => []
  | item :: rest =>
    findings base (Pointer.extend pointer (toString position)) false item ++
      inItems base pointer (position + 1) rest
termination_by structural items => items

end

end Finding

namespace Registry

/-- Record what was found. -/
def record (registry : Registry) : Finding → Registry
  | .resource uri contents =>
    { registry with resources := registry.resources.put uri ⟨contents, some uri⟩ }
  | .anchor resource name pointer =>
    { registry with anchors := registry.anchors.put (resource, name) ⟨resource, pointer⟩ }

/-- The name that a document goes by: the one it declares, joined onto the one under
which it is registered. -/
def nameOf (uri : String) (resource : Resource) : String :=
  match resource.id with
  | some declared => Uri.join uri declared
  | none => uri

/-- The resources, with another name for the one that is registered somewhere. -/
def renamed (registry : Registry) (uri name : String) : Table String Resource :=
  match registry.resources.get? uri with
  | some old => registry.resources.put uri { old with id := some name }
  | none => registry.resources

/-- Make a document known under the name it declares.  What is registered there
already stays. -/
def adopt (registry : Registry) (uri : String) (resource : Resource) : Registry :=
  match resource.id with
  | none => registry
  | some _ =>
    let name := nameOf uri resource
    let named := registry.renamed uri name
    { registry with
      resources := if named.has name then named else named.put name ⟨resource.contents, some name⟩ }

/-- Crawl one document. -/
def crawlDocument (registry : Registry) (document : String × Resource) : Registry :=
  let (uri, resource) := document
  (Finding.findings (nameOf uri resource) "" true resource.contents).foldl record
    (registry.adopt uri resource)

/-- Crawl some documents in order. -/
def crawlAll (registry : Registry) (documents : List (String × Resource)) : Registry :=
  documents.foldl crawlDocument registry

/-- Crawl every registered document, in the order in which they were registered. -/
def crawl (registry : Registry) : Registry := registry.crawlAll registry.resources

/-! ## Tests -/

section Tests

/-- A document with an anchor, and an embedded resource with another. -/
def sample : Registry :=
  (Registry.register {} "Root" (.object [("$defs", .object [
    ("Plain", .object [("$anchor", .string "plain")]),
    ("Nested", .object [("$id", .string "nested.json"),
      ("x", .object [("$anchor", .string "inner")])])])])).crawl

/-- Whether an anchor leads to a value that declares it. -/
def leadsTo (uri name : String) : Bool :=
  match sample.anchor uri name with
  | .ok value => (value.get? "$anchor").bind Json.asString? == some name
  | .error _ => false

/-- Why an anchor leads nowhere. -/
def anchorError? (uri name : String) : Option LoadError :=
  match sample.anchor uri name with
  | .ok _ => none
  | .error error => some error

example : sample.resources.keys = ["Root", "nested.json"] := by decide +kernel
example : leadsTo "Root" "plain" ∧ leadsTo "nested.json" "inner" := by decide +kernel
example : anchorError? "Root" "inner"
    = some (.malformedReference "Root" "inner" (.anchorElsewhere "nested.json")) := by
  decide +kernel
example : anchorError? "Root" "nope" = some (.noSuchAnchor "Root" "nope") := by decide +kernel

end Tests

end Registry

end SchemaDoc
