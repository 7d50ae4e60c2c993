import SchemaDoc.Json.Basic

/-!
# Types

A *type* says which values a setting may have.  It has a *shape*, maybe a constant
that is its only value, and annotations.  A shape is a leaf, a reference to another
type, or is built of smaller types, its *children*.

The annotations are what a page shows beside the type.  They never take part in a
comparison, see `SchemaDoc.Ty.Equality`.

`Ty.induct` is induction on the children of a type, whatever its shape.
-/

namespace SchemaDoc

/-- Which settings are under a type: settings of a user and settings of a project. -/
structure Scope where
  user : Bool := false
  project : Bool := false
deriving DecidableEq, Repr

/-- What is said about a type without being part of it. -/
structure Annotations where
  /-- The name of the type, empty if it has none. -/
  id : String := ""
  title : Option String := none
  description : Option String := none
  deprecated : Bool := false
  /-- Whether an object must have the member that the type is of. -/
  required : Bool := false
  /-- The default, which may be there and be null. -/
  default : Option Json := none
  scope : Scope := {}
deriving Repr

/-- A type without parts. -/
inductive Leaf where
  | null
  | boolean
  | integer
  | number
  | string
  | any
deriving DecidableEq, Repr

/-- The name of a leaf in a schema. -/
def Leaf.keyword : Leaf → String
  | .null => "null"
  | .boolean => "boolean"
  | .integer => "integer"
  | .number => "number"
  | .string => "string"
  | .any => "any"

/-- The two kinds of union. -/
inductive UnionForm where
  /-- A union of any types. -/
  | oneOf
  /-- A union of constants. -/
  | enum
deriving DecidableEq, Repr

/-- How a type is built from others. -/
inductive Shape (α : Type) where
  | leaf (leaf : Leaf)
  /-- The type of a name. -/
  | reference (target : String)
  /-- An object with named members, and the type of all other members if there may be
  others. -/
  | object (members : List (String × α)) (rest : Option α)
  /-- An array, with or without repeated items. -/
  | array (unique : Bool) (item : α)
  /-- An array with a type for each of the first items, and one for all further items
  if there may be further ones. -/
  | tuple (items : List α) (tail : Option α)
  | union (form : UnionForm) (items : List α) (nullable : Bool)
  | intersection (items : List α)
deriving Repr

/-- The parts of a shape, in order. -/
def Shape.parts {α : Type} : Shape α → List α
  | .leaf _ => []
  | .reference _ => []
  | .object members rest => members.map Prod.snd ++ rest.toList
  | .array _ item => [item]
  | .tuple items tail => items ++ tail.toList
  | .union _ items _ => items
  | .intersection items => items

/-- A type. -/
structure Ty where
  annotations : Annotations := {}
  /-- The only value of the type, which may be there and be null. -/
  const : Option Json := none
  shape : Shape Ty
deriving Repr

namespace Ty

/-! ## Building types -/

/-- A type of a shape, with nothing said about it. -/
def ofShape (shape : Shape Ty) : Ty := { shape }

/-- A leaf. -/
def ofLeaf (leaf : Leaf) : Ty := ofShape (.leaf leaf)

/-- Any value. -/
def any : Ty := ofLeaf .any

instance : Inhabited Ty := ⟨any⟩

/-- The type of a name. -/
def reference (target : String) : Ty := ofShape (.reference target)

/-- The type whose only value is given.  Null is a type already. -/
def ofConst (value : Json) : Ty :=
  let only (leaf : Leaf) : Ty := { const := some value, shape := .leaf leaf }
  match value with
  | .null => ofLeaf .null
  | .bool _ => only .boolean
  | .number (.integer _) => only .integer
  | .number (.double _) => only .number
  | .string _ => only .string
  | .array _ => only .any
  | .object _ => only .any

/-- A type with other annotations. -/
def annotate (ty : Ty) (change : Annotations → Annotations) : Ty :=
  { ty with annotations := change ty.annotations }

/-- A type under a name. -/
def withId (ty : Ty) (id : String) : Ty := ty.annotate fun notes => { notes with id }

/-- A type with a scope. -/
def withScope (ty : Ty) (scope : Scope) : Ty := ty.annotate fun notes => { notes with scope }

/-! ## Looking at a type -/

/-- The name of a type, empty if it has none. -/
def id (ty : Ty) : String := ty.annotations.id

/-- The default of a type. -/
def default? (ty : Ty) : Option Json := ty.annotations.default

/-- The children, in order. -/
def children (ty : Ty) : List Ty := ty.shape.parts

/-- The leaf that a type is. -/
def leaf? (ty : Ty) : Option Leaf :=
  match ty.shape with
  | .leaf leaf => some leaf
  | _ => none

/-- Whether null is the only value. -/
def isNull (ty : Ty) : Bool := ty.leaf? = some .null

/-- Whether a type is a union of constants. -/
def isEnum (ty : Ty) : Bool :=
  match ty.shape with
  | .union .enum _ _ => true
  | _ => false

/-- The name that a reference refers to. -/
def target? (ty : Ty) : Option String :=
  match ty.shape with
  | .reference target => some target
  | _ => none

/-- The named members of an object that has some. -/
def namedChildren? (ty : Ty) : Option (Table String Ty) :=
  match ty.shape with
  | .object (member :: rest) _ => some (member :: rest)
  | _ => none

/-- The members of a union or of an intersection. -/
def members? (ty : Ty) : Option (List Ty) :=
  match ty.shape with
  | .union _ items _ => some items
  | .intersection items => some items
  | _ => none

/-- Whether a type is a union of null and one other member. -/
def isOptional (ty : Ty) : Bool :=
  match ty.shape with
  | .union _ items nullable => nullable && items.length == 2
  | _ => false

mutual

/-- The member of an optional type that is not null, without options of its own; any
other type as it is. -/
def unwrapOptional (ty : Ty) : Ty :=
  match ty with
  | ⟨notes, const, .union form items nullable⟩ =>
    if nullable && items.length == 2 then
      (firstPresent? items).getD ⟨notes, const, .union form items nullable⟩
    else ⟨notes, const, .union form items nullable⟩
  | ty => ty
termination_by structural ty

/-- The first type that is not null, unwrapped. -/
def firstPresent? : List Ty → Option Ty
  | [] => none
  | item :: rest => if item.isNull then firstPresent? rest else some item.unwrapOptional
termination_by structural items => items

end

mutual

/-- The references in a type, in order.  They are not followed. -/
def references : Ty → List Ty
  | ⟨_, _, .leaf _⟩ => []
  | ⟨notes, const, .reference target⟩ => [⟨notes, const, .reference target⟩]
  | ⟨_, _, .object members rest⟩ =>
    memberReferences members ++
      match rest with
      | some ty => ty.references
      | none => []
  | ⟨_, _, .array _ item⟩ => item.references
  | ⟨_, _, .tuple items tail⟩ =>
    itemReferences items ++
      match tail with
      | some ty => ty.references
      | none => []
  | ⟨_, _, .union _ items _⟩ => itemReferences items
  | ⟨_, _, .intersection items⟩ => itemReferences items
termination_by structural ty => ty

/-- The references in the types of some members. -/
def memberReferences : List (String × Ty) → List Ty
  | [] => []
  | (_, ty) :: rest => ty.references ++ memberReferences rest
termination_by structural members => members

/-- The references in some types. -/
def itemReferences : List Ty → List Ty
  | [] => []
  | ty :: rest => ty.references ++ itemReferences rest
termination_by structural items => items

end

/-- A type whose scope covers what its children have.  Without children it keeps its
own. -/
def propagateScope (ty : Ty) : Ty :=
  match ty.children with
  | [] => ty
  | children =>
    ty.withScope
      { user := children.any fun child => child.annotations.scope.user
        project := children.any fun child => child.annotations.scope.project }

/-! ## Induction -/

/-- Induction on the children of a type. -/
theorem induct {motive : Ty → Prop}
    (step : ∀ ty : Ty, (∀ child ∈ ty.children, motive child) → motive ty) (ty : Ty) :
    motive ty := by
  refine Ty.rec (motive_1 := motive) (motive_2 := fun shape => ∀ part ∈ shape.parts, motive part)
    (motive_3 := fun members => ∀ member ∈ members, motive member.2)
    (motive_4 := fun part => ∀ ty ∈ part.toList, motive ty)
    (motive_5 := fun items => ∀ item ∈ items, motive item)
    (motive_6 := fun member => motive member.2)
    ?mk ?leaf ?reference ?object ?array ?tuple ?union ?intersection ?noMember ?member ?noPart
    ?part ?noItem ?item ?pair ty
  case mk => exact fun notes const shape parts => step ⟨notes, const, shape⟩ parts
  case leaf => simp [Shape.parts]
  case reference => simp [Shape.parts]
  case object =>
    intro members rest inMembers inRest part h
    rcases List.mem_append.mp h with h | h
    · obtain ⟨member, hm, rfl⟩ := List.mem_map.mp h
      exact inMembers member hm
    · exact inRest part h
  case array => simp [Shape.parts]
  case tuple =>
    intro items tail inItems inTail part h
    exact (List.mem_append.mp h).elim (inItems part) (inTail part)
  case union => exact fun _ _ _ inItems => inItems
  case intersection => exact fun _ inItems => inItems
  case noMember => simp
  case member => exact fun _ _ first others => List.forall_mem_cons.mpr ⟨first, others⟩
  case noPart => simp
  case part => simp
  case noItem => simp
  case item => exact fun _ _ first others => List.forall_mem_cons.mpr ⟨first, others⟩
  case pair => exact fun _ _ h => h

/-! ## Tests -/

section Tests

/-- A union of null and another type. -/
def orNull (ty : Ty) : Ty := ofShape (.union .oneOf [ty, ofLeaf .null] true)

example : (orNull (orNull (ofLeaf .integer))).unwrapOptional.leaf? = some .integer := by decide
example : (orNull (ofLeaf .null)).unwrapOptional.isOptional = true := by decide
example : ((ofShape (.object [("a", reference "A"), ("b", ofShape (.array true (reference "B")))]
    (some (reference "C")))).references.filterMap target?) = ["A", "B", "C"] := by decide
example : (ofShape (.tuple [any.withScope ⟨true, false⟩] none)).propagateScope.annotations.scope
    = ⟨true, false⟩ := by decide

end Tests

end Ty

end SchemaDoc
