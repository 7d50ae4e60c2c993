import SchemaDoc.Ty.Basic

/-!
# Schemas

A *schema* is what a JSON value says about types, with the keywords that matter here
and no others.  A value that is no object says nothing.  The order of the keywords
in the object does not matter, so each has a place of its own.

`Schema.ofJson` reads a schema.  One keyword is a parameter: a property that has it
with any value but `false` is *marked*, which makes it a setting of the user.
-/

namespace SchemaDoc

/-- One of the types that a schema declares by name. -/
inductive Schema.TypeName where
  | array
  | object
  | leaf (leaf : Leaf)
deriving DecidableEq, Repr

/-- What a schema says about arrays. -/
structure Schema.Arrays (α : Type) where
  /-- The schema of all items, or of those after the first. -/
  items : Option α := none
  /-- The schemas of the first items. -/
  firstItems : Option (List α) := none
  unique : Bool := false
  maxItems : Option Nat := none

/-- A named property. -/
structure Schema.Property (α : Type) where
  name : String
  /-- Whether it is a setting of the user. -/
  marked : Bool
  schema : α

/-- What a schema says about objects. -/
structure Schema.Objects (α : Type) where
  properties : List (Schema.Property α) := []
  required : List String := []
  /-- The schema of all other properties, if there may be others. -/
  rest : Option α := none

/-- What a schema puts over the annotations of its type, and the constant. -/
structure Schema.Overlay where
  title : Option String := none
  description : Option String := none
  deprecated : Option Bool := none
  default : Option Json := none
  const : Option Json := none

/-- A schema. -/
structure Schema where
  /-- A reference, which makes all but the overlay void. -/
  reference : Option String := none
  types : List Schema.TypeName := []
  arrays : Schema.Arrays Schema := {}
  objects : Schema.Objects Schema := {}
  anyOf : List Schema := []
  oneOf : List Schema := []
  enum : List Json := []
  allOf : List Schema := []
  overlay : Schema.Overlay := {}

namespace Schema

/-! ## Reading the parts without schemas in them -/

/-- The type of a name. -/
def TypeName.ofName? : String → Option TypeName
  | "array" => some .array
  | "object" => some .object
  | "null" => some (.leaf .null)
  | "boolean" => some (.leaf .boolean)
  | "integer" => some (.leaf .integer)
  | "number" => some (.leaf .number)
  | "string" => some (.leaf .string)
  | _ => none

/-- The type that an entry declares; `true` declares any. -/
def TypeName.ofJson? : Json → Option TypeName
  | .string name => ofName? name
  | .bool true => some (.leaf .any)
  | _ => none

/-- The types that a value declares, one or several. -/
def typeNames : Json → List TypeName
  | .array entries => entries.filterMap TypeName.ofJson?
  | entry => [entry].filterMap TypeName.ofJson?

/-- The texts in an array. -/
def texts (value : Json) : List String := (value.asArray?.getD []).filterMap Json.asString?

/-- Whether a property is marked by a keyword. -/
def isMarked (keyword : String) (value : Json) : Bool :=
  match value.get? keyword with
  | none => false
  | some (.bool false) => false
  | some _ => true

/-- Whether a value admits no other properties. -/
def closes : Json → Bool
  | .bool false => true
  | _ => false

/-- A schema with one more keyword that has no schema under it. -/
def putPlain (schema : Schema) (key : String) (value : Json) : Schema :=
  let overlay (change : Overlay → Overlay) : Schema :=
    { schema with overlay := change schema.overlay }
  match key with
  | "$ref" => { schema with reference := value.asString? }
  | "type" => { schema with types := typeNames value }
  | "uniqueItems" =>
    { schema with arrays := { schema.arrays with unique := value.asBool?.getD false } }
  | "maxItems" => { schema with arrays := { schema.arrays with maxItems := value.asNat? } }
  | "required" => { schema with objects := { schema.objects with required := texts value } }
  | "enum" => { schema with enum := value.asArray?.getD [] }
  | "title" => overlay fun o => { o with title := value.asString? }
  | "description" => overlay fun o => { o with description := value.asString? }
  | "deprecated" => overlay fun o => { o with deprecated := value.asBool? }
  | "default" => overlay fun o => { o with default := some value }
  | "const" => overlay fun o => { o with const := some value }
  | _ => schema

/-! ## Reading a schema -/

mutual

/-- The schema that a value is. -/
def ofJson (keyword : String) : Json → Schema
  | .object members => ofMembers keyword members
  | _ => {}
termination_by structural value => value

/-- The schema with some keywords. -/
def ofMembers (keyword : String) : List (String × Json) → Schema
  | [] => {}
  | (key, value) :: rest =>
    let schema := ofMembers keyword rest
    match key with
    | "items" =>
      { schema with arrays := { schema.arrays with items := some (ofJson keyword value) } }
    | "prefixItems" =>
      { schema with arrays := { schema.arrays with firstItems := some (listOf keyword value) } }
    | "properties" =>
      { schema with objects := { schema.objects with properties := propertiesOf keyword value } }
    | "additionalProperties" =>
      { schema with
        objects := { schema.objects with
          rest := if closes value then none else some (ofJson keyword value) } }
    | "anyOf" => { schema with anyOf := listOf keyword value }
    | "oneOf" => { schema with oneOf := listOf keyword value }
    | "allOf" => { schema with allOf := listOf keyword value }
    | _ => schema.putPlain key value
termination_by structural members => members

/-- The schemas in an array; a value that is no array has none. -/
def listOf (keyword : String) : Json → List Schema
  | .array items => ofItems keyword items
  | _ => []
termination_by structural value => value

/-- The schemas that some values are. -/
def ofItems (keyword : String) : List Json → List Schema
  | [] => []
  | item :: rest => ofJson keyword item :: ofItems keyword rest
termination_by structural items => items

/-- The properties in an object; a value that is no object has none. -/
def propertiesOf (keyword : String) : Json → List (Property Schema)
  | .object members => propertiesOfMembers keyword members
  | _ => []
termination_by structural value => value

/-- The properties that some members are. -/
def propertiesOfMembers (keyword : String) : List (String × Json) → List (Property Schema)
  | [] => []
  | (name, value) :: rest =>
    ⟨name, isMarked keyword value, ofJson keyword value⟩ :: propertiesOfMembers keyword rest
termination_by structural members => members

end

/-! ## Overlays -/

/-- A type with an overlay.  What the overlay does not say stays. -/
def Overlay.apply (overlay : Overlay) (ty : Ty) : Ty :=
  { ty with
    const := overlay.const.or ty.const
    annotations := { ty.annotations with
      title := overlay.title.or ty.annotations.title
      description := overlay.description.or ty.annotations.description
      deprecated := overlay.deprecated.getD ty.annotations.deprecated
      default := overlay.default.or ty.annotations.default } }

/-- The defaults that an overlay gives to the members of an object. -/
def Overlay.memberDefaults (overlay : Overlay) : Table String Json :=
  (overlay.default.bind Json.asObject?).getD []

/-! ## Tests -/

section Tests

/-- A schema with keywords in no particular order. -/
def sample : Schema :=
  ofJson "mark" (.object [("required", .array [.string "a", .null]),
    ("properties", .object [("a", .object [("mark", .object [])]), ("b", .object [("mark", .bool false)])]),
    ("type", .array [.string "object", .bool true, .string "any", .string "null"]),
    ("prefixItems", .bool true), ("additionalProperties", .bool false), ("title", .ofNat 1)])

example : sample.types = [.object, .leaf .any, .leaf .null] := by decide +kernel
example : sample.objects.properties.map (fun p => (p.name, p.marked)) = [("a", true), ("b", false)] := by
  decide +kernel
example : sample.objects.required = ["a"] ∧ sample.objects.rest.isNone := by decide +kernel
example : sample.arrays.firstItems.map List.length = some 0 := by decide +kernel
example : sample.overlay.title = none := by decide +kernel

end Tests

end Schema

end SchemaDoc
