import SchemaDoc.Documentation.Block
import SchemaDoc.Session.Print
import SchemaDoc.Text.Blank

/-!
# Documenting a type

The documentation of a type has an entry for the type and, if it is *recursive*, an
entry for each property under that, for each property of those, and so on, and for
each value of an enumeration.  A reference to a type that may be inlined is
documented in place; every other type has an entry of its own, and those that were
not met on the way come last, in a section of their own.

Entries can be left out by their address.  An *unwrapped* documentation has entries
for the properties of an object type and none for the type itself.

References are followed from one entry into the type of another, which `underWithin`
does a limited number of times.  A type with a name is never inlined inside itself, so there
are at most as many targets inside each other as there are types.  Only a type without a name
may be, and then a documentation has no end, see `isEndless`.
-/

namespace SchemaDoc

/-- What is asked of a documentation. -/
structure Documentation.Options where
  /-- Document the properties of each entry, and every type that is referred to. -/
  recursive : Bool := false
  /-- Document the properties of an object type in its place. -/
  unwrap : Bool := false
  title : Option String := none
  /-- What to leave out: names, each maybe with a path after a blank. -/
  exclude : List String := []

/-- What a walk over a type depends on. -/
structure Documentation where
  session : Session
  recursive : Bool
  unwrap : Bool
  /-- The addresses of what is left out. -/
  excluded : List Address

namespace Documentation

/-! ## Entries -/

/-- Whether an address is left out. -/
def isExcluded (doc : Documentation) (address : Address) : Bool := doc.excluded.contains address

/-- The defaults that a type gives to its members. -/
def memberDefaults (default : Option Json) : Option (Table String Json) :=
  default.bind Json.asObject?

/-- The type that stands in for a property which is a reference documented in place.
What the property says comes before what the target says. -/
def standIn? (session : Session) (child : Ty) : Option Ty :=
  match child.unwrapOptional.target? with
  | none => none
  | some target =>
    if session.canInline target then
      some (((session.get? target).getD .any).annotate fun notes =>
        { notes with
          title := child.annotations.title.or notes.title
          description := child.annotations.description.or notes.description
          deprecated := notes.deprecated || child.annotations.deprecated
          required := notes.required || child.annotations.required
          default := child.annotations.default.or notes.default })
    else none

/-- A type with the default that an object gives it. -/
def withGiven (given : Option Json) (ty : Ty) : Ty :=
  ty.annotate fun notes => { notes with default := given.or notes.default }

/-- Whether an object with named members is under a type. -/
def isGroup (ty : Ty) : Bool := ty.unwrapOptional.namedChildren?.isSome

/-- The head of the entry of a property.  An object shows neither type nor default,
since its members do. -/
def memberEntry (session : Session) (name : String) (child : Ty) : Entry :=
  if isGroup child then { kind := .setting, name }
  else
    { kind := .setting
      name
      signature :=
        if session.canInline child.id && !child.unwrapOptional.isEnum then
          some (session.print child false)
        else none
      default := child.default?.map Json.compact }

/-- The head of the entry of a property inside the entry of its object.  A property
that may be null and has no default is null by default. -/
def innerEntry (session : Session) (name : String) (child : Ty) : Entry :=
  let entry := memberEntry session name child
  if !isGroup child && entry.default.isNone && child.isOptional then
    { entry with default := some "null" }
  else entry

/-- The text that describes a type. -/
def descriptionOf (ty : Ty) : List Block := (ty.annotations.description.map Block.text).toList

/-- The entry of a type at an address, unless it is left out. -/
def entryBlocks (doc : Documentation) (address : Address) (entry : Entry) (ty : Ty)
    (inner : Unit → List Block) : List Block :=
  if doc.isExcluded address then []
  else
    let marked := { entry with
      required := ty.annotations.required, deprecated := ty.annotations.deprecated }
    [.entry address ty.id marked (descriptionOf ty ++ if doc.recursive then inner () else [])]

/-! ## What is under a type -/

/-- The blocks of the targets of some references that may be inlined. -/
def followed (doc : Documentation) (next : Ty → List Block) (references : List Ty) : List Block :=
  references.flatMap fun reference =>
    match reference.target? with
    | none => []
    | some target =>
      if doc.session.canInline target then ((doc.session.get? target).map next).getD [] else []

mutual

/-- The blocks of what is under a type, given its default and how a target is gone
into. -/
def under (doc : Documentation) (root : String) (next : String → Ty → List Block) (path : String)
    (default : Option Json) : Ty → List Block
  | ⟨_, _, .object (member :: members) _⟩ =>
    underMembers doc root next path (memberDefaults default) (member :: members)
  | ⟨notes, const, .union form items nullable⟩ =>
    match if nullable && items.length == 2 then underPresent? doc root next path items else none with
    | some blocks => blocks
    | none =>
      match form with
      | .enum => underValues doc root next path items
      | .oneOf => followed doc (next path) (Ty.references ⟨notes, const, .union form items nullable⟩)
  | ty => followed doc (next path) ty.references
termination_by structural ty => ty

/-- The blocks of what is under the first type that is not null. -/
def underPresent? (doc : Documentation) (root : String) (next : String → Ty → List Block)
    (path : String) : List Ty → Option (List Block)
  | [] => none
  | ty :: rest =>
    if ty.isNull then underPresent? doc root next path rest
    else some (under doc root next path ty.default? ty)
termination_by structural items => items

/-- The entries of some properties, given the defaults of their object. -/
def underMembers (doc : Documentation) (root : String) (next : String → Ty → List Block)
    (path : String) (defaults : Option (Table String Json)) : List (String × Ty) → List Block
  | [] => []
  | (name, child) :: rest =>
    let given := defaults.bind fun table => table.get? name
    let inner := Address.join path name
    (match standIn? doc.session child with
      | some target =>
        let shown := withGiven given target
        entryBlocks doc ⟨root, inner⟩ (innerEntry doc.session name shown) shown fun _ =>
          next inner shown
      | none =>
        let shown := withGiven given child
        entryBlocks doc ⟨root, inner⟩ (innerEntry doc.session name shown) shown fun _ =>
          under doc root next inner shown.default? child) ++
      underMembers doc root next path defaults rest
termination_by structural members => members

/-- The entries of the values of an enumeration. -/
def underValues (doc : Documentation) (root : String) (next : String → Ty → List Block)
    (path : String) : List Ty → List Block
  | [] => []
  | item :: rest =>
    let name := doc.session.print item false
    let inner := Address.join path name
    entryBlocks doc ⟨root, inner⟩ { kind := .value, name } item
        (fun _ => under doc root next inner item.default? item) ++
      underValues doc root next path rest
termination_by structural items => items

end

/-- The blocks of what is under a type, with a limit on the targets inside each
other. -/
def underWithin (doc : Documentation) (root : String) : Nat → String → Ty → List Block
  | 0, _, _ => []
  | room + 1, path, ty => under doc root (underWithin doc root room) path ty.default? ty

/-- The blocks of what is under a type. -/
def underAll (doc : Documentation) (root path : String) (ty : Ty) : List Block :=
  underWithin doc root (doc.session.cache.length + 1) path ty

/-- As `underWithin`, with a title in place of every target beyond the limit. -/
def markedWithin (doc : Documentation) (root : String) : Nat → String → Ty → List Block
  | 0, _, _ => [.title ""]
  | room + 1, path, ty => under doc root (markedWithin doc root room) path ty.default? ty

/-- Whether there are more targets inside each other under a type than there are types.  One of
them is inside itself then, and what is under the type has no end.  Nothing under a type has a
title, so one is there only if a target is beyond the limit. -/
def isEndless (doc : Documentation) (root path : String) (ty : Ty) : Bool :=
  (Block.eventsOfAll (markedWithin doc root (doc.session.cache.length + 2) path ty)).contains
    (.title "")

/-! ## Types with entries of their own -/

/-- The blocks of an object type without an entry of its own. -/
def unwrappedBlocks (doc : Documentation) (ty : Ty) (members : Table String Ty) : List Block :=
  if doc.isExcluded ⟨ty.id, ""⟩ then []
  else
    let defaults := memberDefaults ty.default?
    descriptionOf ty ++ members.flatMap fun (name, child) =>
      let given := defaults.bind fun table => table.get? name
      let shown := withGiven given ((standIn? doc.session child).getD child)
      let entry := { memberEntry doc.session name shown with owner := some ty.id }
      entryBlocks doc ⟨ty.id, name⟩ entry shown fun _ => underAll doc ty.id name shown

/-- The members that stand in for an object type. -/
def unwrapped? (doc : Documentation) (ty : Ty) : Option (Table String Ty) :=
  if doc.unwrap then ty.namedChildren? else none

/-- The blocks of a type with a name. -/
def typeBlocks (doc : Documentation) (ty : Ty) : List Block :=
  match doc.unwrapped? ty with
  | some members => doc.unwrappedBlocks ty members
  | none =>
    entryBlocks doc ⟨ty.id, ""⟩ { kind := .setting, name := ty.id } ty fun _ =>
      underAll doc ty.id "" ty

/-- The names of the types that are documented once a type is. -/
def documented (doc : Documentation) (ty : Ty) : List String :=
  let own := if (doc.unwrapped? ty).isSome && !doc.isExcluded ⟨ty.id, ""⟩ then [ty.id] else []
  own ++ Block.idsOfAll (doc.typeBlocks ty)

/-- The blocks of the types that need an entry of their own and have none yet, type
by type. -/
def remaining (doc : Documentation) (done : List String) : List (String × Ty) → List (List Block)
  | [] => []
  | (id, ty) :: rest =>
    if done.contains id || doc.session.canInline id || doc.isExcluded ⟨id, ""⟩ then
      doc.remaining done rest
    else doc.typeBlocks ty :: doc.remaining (doc.documented ty ++ done) rest

/-- The title of the section of the types that come last. -/
def typesTitle : String := "Config types"

/-- The blocks of the types that come last. -/
def typesSection (doc : Documentation) (done : List String) : List Block :=
  match doc.remaining done doc.session.loaded with
  | [] => []
  | types => .title typesTitle :: types.flatten

/-- The blocks of the documentation of a type. -/
def blocks (doc : Documentation) (title : Option String) (root : Ty) : List Block :=
  (title.map Block.title).toList ++ doc.typeBlocks root ++
    if doc.recursive then doc.typesSection (doc.documented root) else []

/-- Whether the documentation of a type has an end.  Without recursion nothing is followed. -/
def hasEnd (doc : Documentation) (root : Ty) : Bool :=
  let linked := doc.session.loaded.filter fun entry => !doc.session.canInline entry.1
  !doc.recursive || (root :: linked.map Prod.snd).all fun ty =>
    doc.isExcluded ⟨ty.id, ""⟩ || !doc.isEndless ty.id "" ty

/-! ## Documenting a name -/

/-- The name and the path in a text of what to leave out. -/
def readExclusion? (text : String) : Option (String × String) :=
  match Text.trim text.toList with
  | [] => none
  | trimmed =>
    let path := (trimmed.dropWhile fun c => !Text.isBlank c).drop 1
    some (String.ofList (trimmed.takeWhile fun c => !Text.isBlank c), String.ofList (Text.trim path))

/-- Load the names of what to leave out. -/
def loadExclusions (session : Session) : List String → Except LoadError (List Address) × Session
  | [] => (.ok [], session)
  | text :: rest =>
    match readExclusion? text with
    | none => loadExclusions session rest
    | some (target, path) =>
      match session.load target with
      | (.error error, session) => (.error error, session)
      | (.ok ty, session) =>
        match loadExclusions session rest with
        | (.error error, session) => (.error error, session)
        | (.ok addresses, session) => (.ok (⟨ty.id, path⟩ :: addresses), session)

end Documentation

/-- Load a name and document it. -/
def Session.document (session : Session) (uri : String) (options : Documentation.Options) :
    Except LoadError (List Block) × Session :=
  match session.load uri with
  | (.error error, session) => (.error error, session)
  | (.ok root, session) =>
    match Documentation.loadExclusions session options.exclude with
    | (.error error, session) => (.error error, session)
    | (.ok excluded, session) =>
      let doc : Documentation :=
        { session, recursive := options.recursive, unwrap := options.unwrap, excluded }
      (.ok (doc.blocks options.title root), session)

/-- Whether the documentation of a name has an end, if there is one. -/
def Session.documentHasEnd (session : Session) (uri : String) (options : Documentation.Options) :
    Bool :=
  match session.load uri with
  | (.error _, _) => true
  | (.ok root, session) =>
    match Documentation.loadExclusions session options.exclude with
    | (.error _, _) => true
    | (.ok excluded, session) =>
      let doc : Documentation :=
        { session, recursive := options.recursive, unwrap := options.unwrap, excluded }
      doc.hasEnd root

/-! ## Tests -/

section Tests

/-- The heads of the entries in some events, each after a mark for its depth. -/
def Event.outline (depth : Nat) : List Event → List String
  | [] => []
  | .enter entry :: rest =>
    (String.ofList (List.replicate depth '.') ++ entry.display) :: Event.outline (depth + 1) rest
  | .leave :: rest => Event.outline (depth - 1) rest
  | .title heading :: rest => ("# " ++ heading) :: Event.outline depth rest
  | .text body :: rest => ("> " ++ body) :: Event.outline depth rest

/-- An object type with an enumeration, a list of a shared type and an option. -/
def settingsSchema : Json :=
  .object [("type", .string "object"), ("default", .object [("mode", .string "fast")]),
    ("properties", .object [
      ("mode", .object [("enum", .array [.string "fast", .string "slow"]),
        ("description", .string "How.")]),
      ("limit", .object [("type", .array [.string "integer", .string "null"])]),
      ("paths", .object [("type", .string "array"), ("items", .object [("$ref", .string "#/P")])]),
      ("extra", .object [("$ref", .string "#/P")])]),
    ("P", .object [("type", .string "string")])]

/-- The outline of the documentation of the settings. -/
def settingsOutline (options : Documentation.Options) : List String :=
  match ((Session.ofDocument settingsSchema).document "Root" options).1 with
  | .ok blocks => Event.outline 0 (Block.eventsOfAll blocks)
  | .error error => [error.message]

example : settingsOutline {} = ["Root"] := by decide +kernel
example : settingsOutline { unwrap := true, exclude := ["Root mode", " "] }
    = ["Root.limit: integer?", "Root.paths: Root#/P[]", "Root.extra: Root#/P"] := by decide +kernel

end Tests

end SchemaDoc
