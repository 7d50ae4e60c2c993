import SchemaDoc.Schema
import SchemaDoc.Ty.Normal

/-!
# Compiling a schema

A schema is compiled to a type from the inside out.  How a reference is followed is a
parameter, which may have effects of any kind: references are followed in the order in
which the schema is compiled, and nothing else has an effect.

A tuple is all that a schema is.  The types declared before it are compiled and dropped,
and nothing after it is compiled.
-/

namespace SchemaDoc

/-- A reference of a schema, and what the schema puts over the type it refers to. -/
structure Schema.Reference where
  text : String
  overlay : Schema.Overlay

namespace Schema

/-! ## Parts without references -/

/-- The type of a property: what the object says about it comes before what the
schema of the property says.  A setting that is not of the user is of the project. -/
def propertyType (defaults : Table String Json) (required : List String) (name : String)
    (marked : Bool) (ty : Ty) : Ty :=
  let scope := if marked then { user := true, project := false } else ty.annotations.scope
  ty.annotate fun notes =>
    { notes with
      default := (defaults.get? name).or notes.default
      required := required.contains name
      scope := { scope with project := scope.project || !scope.user } }

/-- The type of a schema that is no reference and no tuple. -/
def combine (overlay : Overlay) (arms all : List Ty) : Ty :=
  let candidates := if arms.isEmpty then all else .oneOf arms :: all
  let ty := if candidates.isEmpty then .any else .allOf candidates
  (overlay.apply ty).propagateScope

/-- The type of some arrays: a tuple if the first items have schemas of their own. -/
def arrayType (unique : Bool) (maxItems : Option Nat) (item : Ty) : Option (List Ty) → Ty
  | some types =>
    let isFull := maxItems.any fun limit => limit ≤ types.length
    .ofShape (.tuple types (if isFull then none else some item))
  | none => .ofShape (.array unique item)

/-- Whether the types that a schema declares make it a tuple. -/
def isTuple (types : List TypeName) (arrays : Arrays Schema) : Bool :=
  arrays.firstItems.isSome && types.contains .array

/-- The types declared before the first array. -/
def beforeArray (types : List TypeName) : List TypeName := types.takeWhile (· != .array)

/-! ## Compiling -/

variable {m : Type → Type} [Monad m]

/-- The type that a name declares, given how arrays and objects are compiled. -/
def TypeName.compile (array object : m Ty) : TypeName → m Ty
  | .array => array
  | .object => object
  | .leaf kind => pure (.ofLeaf kind)

mutual

/-- The type of a schema, given how references are followed. -/
def compile (refer : Reference → m Ty) (schema : Schema) : m Ty :=
  match schema with
  | ⟨some text, _, _, _, _, _, _, _, overlay⟩ => refer ⟨text, overlay⟩
  | ⟨none, types, arrays, objects, anyOf, oneOf, enum, allOf, overlay⟩ =>
    let array := compileArray refer arrays
    let object := compileObject refer overlay.memberDefaults objects
    if isTuple types arrays then do
      let _ ← (beforeArray types).mapM (TypeName.compile array object)
      let ty ← array
      pure (overlay.apply ty).propagateScope
    else do
      let declared ← types.mapM (TypeName.compile array object)
      let anyTypes ← compileAll refer anyOf
      let oneTypes ← compileAll refer oneOf
      let allTypes ← compileAll refer allOf
      pure (combine overlay (declared ++ anyTypes ++ oneTypes ++ enum.map .ofConst) allTypes)
termination_by structural schema

/-- The types of some schemas. -/
def compileAll (refer : Reference → m Ty) (schemas : List Schema) : m (List Ty) :=
  match schemas with
  | [] => pure []
  | schema :: rest => do
    let ty ← compile refer schema
    let types ← compileAll refer rest
    pure (ty :: types)
termination_by structural schemas

/-- The type of a schema that may be missing. -/
def compileOption (refer : Reference → m Ty) (schema : Option Schema) : m (Option Ty) :=
  match schema with
  | none => pure none
  | some schema => do
    let ty ← compile refer schema
    pure (some ty)
termination_by structural schema

/-- The types of some schemas that may be missing. -/
def compileAllOption (refer : Reference → m Ty) (schemas : Option (List Schema)) :
    m (Option (List Ty)) :=
  match schemas with
  | none => pure none
  | some schemas => do
    let types ← compileAll refer schemas
    pure (some types)
termination_by structural schemas

/-- The type of the arrays of a schema. -/
def compileArray (refer : Reference → m Ty) (arrays : Arrays Schema) : m Ty :=
  match arrays with
  | ⟨items, firstItems, unique, maxItems⟩ => do
    let item ← compileOption refer items
    let types ← compileAllOption refer firstItems
    pure (arrayType unique maxItems (item.getD .any) types)
termination_by structural arrays

/-- The type of the objects of a schema. -/
def compileObject (refer : Reference → m Ty) (defaults : Table String Json)
    (objects : Objects Schema) : m Ty :=
  match objects with
  | ⟨properties, required, rest⟩ => do
    let members ← compileProperties refer defaults required properties
    let others ← compileOption refer rest
    pure (Ty.ofShape (.object members others)).propagateScope
termination_by structural objects

/-- The types of some properties. -/
def compileProperties (refer : Reference → m Ty) (defaults : Table String Json)
    (required : List String) (properties : List (Property Schema)) : m (List (String × Ty)) :=
  match properties with
  | [] => pure []
  | ⟨name, marked, schema⟩ :: rest => do
    let ty ← compile refer schema
    let members ← compileProperties refer defaults required rest
    pure ((name, propertyType defaults required name marked ty) :: members)
termination_by structural properties

end

end Schema

end SchemaDoc
