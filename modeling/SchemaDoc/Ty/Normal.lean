import SchemaDoc.Ty.Equality

/-!
# Unions and intersections

`oneOf` and `allOf` build a union and an intersection of some types.  The result is
flat, has no two members that are the same, and is the member itself if there is
only one.  In a union a leaf is dropped beside a constant of the same leaf, since a
page that lists `"a"` gains nothing from `string`, and a union of constants is
marked as one.
-/

namespace SchemaDoc.Ty

/-- The types that are the same as no earlier one and as none of those seen. -/
def distinctFrom (seen : List Ty) : List Ty → List Ty
  | [] => []
  | ty :: rest =>
    if seen.any fun old => old.same ty then distinctFrom seen rest
    else ty :: distinctFrom (ty :: seen) rest

/-! ## Unions -/

/-- The members of a union; any other type alone. -/
def alternatives (ty : Ty) : List Ty :=
  match ty.shape with
  | .union _ items _ => items
  | _ => [ty]

/-- The leaf under a constant, without the constant. -/
def bareLeaf? (ty : Ty) : Option Ty :=
  if ty.leaf?.isSome && ty.const.isSome then some { ty with const := none } else none

/-- Whether a type has a constant. -/
def isConst (ty : Ty) : Bool := ty.const.isSome

/-- The union of types none of which is a union. -/
def unionOfFlat (flat : List Ty) : Ty :=
  match distinctFrom (flat.filterMap bareLeaf?) flat with
  | [ty] => ty
  | items =>
    let form := if !items.isEmpty && items.all isConst then UnionForm.enum else .oneOf
    ofShape (.union form items (flat.any isNull))

/-- The union of some types. -/
def oneOf (types : List Ty) : Ty := unionOfFlat (types.flatMap alternatives)

/-! ## Intersections -/

/-- The members of an intersection; any other type alone. -/
def conjuncts (ty : Ty) : List Ty :=
  match ty.shape with
  | .intersection items => items
  | _ => [ty]

/-- The intersection of types none of which is an intersection. -/
def intersectionOfFlat (flat : List Ty) : Ty :=
  match distinctFrom [] flat with
  | [ty] => ty
  | items => ofShape (.intersection items)

/-- The intersection of some types. -/
def allOf (types : List Ty) : Ty := intersectionOfFlat (types.flatMap conjuncts)

/-! ## Tests -/

section Tests

/-- The constant of a text. -/
def literal (text : String) : Ty := ofConst (.string text)

/-- Whether two types are the same both ways. -/
def alike (a b : Ty) : Bool := same a b && same b a

example : alike (oneOf [oneOf [ofLeaf .string, ofLeaf .integer], ofLeaf .boolean])
    (ofShape (.union .oneOf [ofLeaf .string, ofLeaf .integer, ofLeaf .boolean] false)) = true := by
  decide +kernel
example : alike (oneOf [ofLeaf .string, literal "a", literal "b"])
    (ofShape (.union .enum [literal "a", literal "b"] false)) = true := by decide +kernel
example : alike (oneOf [literal "a", ofLeaf .null])
    (ofShape (.union .oneOf [literal "a", ofLeaf .null] true)) = true := by decide +kernel
example : (oneOf [ofLeaf .integer, ofLeaf .integer]).leaf? = some .integer := by decide +kernel
example : alike (allOf [allOf [reference "A", reference "B"], reference "A"])
    (ofShape (.intersection [reference "A", reference "B"])) = true := by decide +kernel

end Tests

end SchemaDoc.Ty
