import SchemaDoc.Ty.Basic

/-!
# Equality of types

Two types are *the same* if they have the same shape, built of children that are the
same, and the same constant.  Annotations do not count, nor does the order in which
an object lists its members.

`Ty.digest` lists what identifies a type, so that types that are the same have one
digest.
-/

namespace SchemaDoc.Ty

mutual

/-- Whether two types are the same. -/
def same (a b : Ty) : Bool :=
  match a with
  | ⟨_, const, shape⟩ =>
    Json.sameOption const b.const &&
      match shape, b.shape with
      | .leaf x, .leaf y => x == y
      | .reference x, .reference y => x == y
      | .object members rest, .object members' rest' =>
        members.length == members'.length && sameMembers members members' &&
          match rest, rest' with
          | some x, some y => same x y
          | none, none => true
          | _, _ => false
      | .array unique x, .array unique' y => unique == unique' && same x y
      | .tuple items tail, .tuple items' tail' =>
        sameItems items items' &&
          match tail, tail' with
          | some x, some y => same x y
          | none, none => true
          | _, _ => false
      | .union form items nullable, .union form' items' nullable' =>
        form == form' && nullable == nullable' && sameItems items items'
      | .intersection items, .intersection items' => sameItems items items'
      | _, _ => false
termination_by structural a

/-- Whether each member has one that is the same among others. -/
def sameMembers (members others : List (String × Ty)) : Bool :=
  match members with
  | [] => true
  | (name, a) :: rest =>
    (match Table.get? others name with
      | some b => same a b
      | none => false) && sameMembers rest others
termination_by structural members

/-- Whether two lists hold the same types, position by position. -/
def sameItems (items others : List Ty) : Bool :=
  match items, others with
  | [], [] => true
  | a :: as, b :: bs => same a b && sameItems as bs
  | _, _ => false
termination_by structural items

end

/-! ## Digests -/

/-- The place of a shape among the shapes. -/
def shapeIndex : Shape Ty → Nat
  | .object .. => 0
  | .reference _ => 1
  | .array unique _ => if unique then 3 else 2
  | .tuple .. => 4
  | .leaf .null => 5
  | .leaf .boolean => 6
  | .leaf .integer => 7
  | .leaf .number => 8
  | .leaf .string => 9
  | .leaf .any => 10
  | .union .oneOf .. => 11
  | .union .enum .. => 12
  | .intersection _ => 13

/-- What identifies a constant or its absence. -/
def constDigest : Option Json → List Json.Mark
  | none => [.kind 0]
  | some value => .kind 1 :: value.digest

mutual

/-- What identifies a type. -/
def digest : Ty → List Json.Mark
  | ⟨_, const, shape⟩ =>
    .kind (shapeIndex shape) :: (constDigest const ++
      match shape with
      | .leaf _ => []
      | .reference target => [.text target]
      | .object members rest =>
        Json.joinByKey (digestMembers members) ++
          match rest with
          | some ty => digest ty
          | none => []
      | .array _ item => digest item
      | .tuple items tail =>
        .size items.length :: digestItems items ++
          match tail with
          | some ty => digest ty
          | none => []
      | .union _ items nullable => .bool nullable :: .size items.length :: digestItems items
      | .intersection items => .size items.length :: digestItems items)
termination_by structural ty => ty

/-- The digests of the types of some members, under their names. -/
def digestMembers : List (String × Ty) → List (String × List Json.Mark)
  | [] => []
  | (name, ty) :: rest => (name, digest ty) :: digestMembers rest
termination_by structural members => members

/-- The digests of some types, one after the other. -/
def digestItems : List Ty → List Json.Mark
  | [] => []
  | ty :: rest => digest ty ++ digestItems rest
termination_by structural items => items

end

/-! ## Tests -/

section Tests

/-- An object with two members, in one order or the other. -/
def pair (swapped : Bool) : Ty :=
  let a : String × Ty := ("a", ofLeaf .integer)
  let b : String × Ty := ("b", (ofLeaf .string).annotate fun notes => { notes with title := some "B" })
  ofShape (.object (if swapped then [b, a] else [a, b]) none)

example : same (pair true) (pair false) = true := by decide
example : same (pair true) (ofShape (.object [] none)) = false := by decide
example : same (ofConst (.string "a")) (ofLeaf .string) = false := by decide
example : same (ofShape (.array true any)) (ofShape (.array false any)) = false := by decide
example : digest (pair true) = digest (pair false) := by cbv

end Tests

end SchemaDoc.Ty
