import SchemaDoc.Table
import SchemaDoc.Number.Binary64

/-!
# JSON values

An object keeps its members in the order of the document.  A number is an integer
or a double, and the two never compare equal, so `1` and `1.0` are different
values.  Equality of values, `Json.same`, looks members up by key and takes the two
zeros for one number.  It is not equality of the type: two objects with the same
members in another order are the same value.

`Json.digest` lists what identifies a value, with members by key in order and
without the sign of zero, so that values that are the same have one digest.
-/

namespace SchemaDoc

/-- A JSON number: an integer of 64 bits, signed or not, or a double. -/
inductive Json.Number where
  /-- An integer from `-2^63` to `2^64 - 1`. -/
  | integer (value : Int)
  /-- Any other number. -/
  | double (value : Binary64)
deriving DecidableEq, Repr, Inhabited

/-- A JSON value. -/
inductive Json where
  | null
  | bool (value : Bool)
  | number (value : Json.Number)
  | string (value : String)
  | array (items : List Json)
  | object (members : List (String × Json))
deriving Repr, Inhabited

namespace Json

/-! ## Reading parts of a value -/

/-- The member of an object under a key. -/
def get? : Json → String → Option Json
  | .object members, key => Table.get? members key
  | _, _ => none

/-- The text of a string. -/
def asString? : Json → Option String
  | .string text => some text
  | _ => none

/-- The truth value of a boolean. -/
def asBool? : Json → Option Bool
  | .bool value => some value
  | _ => none

/-- The items of an array. -/
def asArray? : Json → Option (List Json)
  | .array items => some items
  | _ => none

/-- The members of an object. -/
def asObject? : Json → Option (Table String Json)
  | .object members => some members
  | _ => none

/-- The value of an integer that is not negative. -/
def asNat? : Json → Option Nat
  | .number (.integer (.ofNat n)) => some n
  | _ => none

/-- The integer `n`. -/
def ofNat (n : Nat) : Json := .number (.integer n)

/-! ## Equality of values -/

/-- Equality of numbers: integers by value, doubles by value. -/
def Number.same : Number → Number → Bool
  | .integer m, .integer n => m == n
  | .double x, .double y => x.same y
  | _, _ => false

mutual

/-- Equality of values. -/
def same : Json → Json → Bool
  | .null, .null => true
  | .bool a, .bool b => a == b
  | .number a, .number b => a.same b
  | .string a, .string b => a == b
  | .array as, .array bs => sameItems as bs
  | .object as, .object bs => as.length == bs.length && sameMembers as bs
  | _, _ => false
termination_by structural value => value

/-- Equality of lists of values, position by position. -/
def sameItems : List Json → List Json → Bool
  | [], [] => true
  | a :: as, b :: bs => same a b && sameItems as bs
  | _, _ => false
termination_by structural items => items

/-- Whether each member has its equal among others. -/
def sameMembers : List (String × Json) → List (String × Json) → Bool
  | [], _ => true
  | (key, a) :: rest, others =>
    (match Table.get? others key with
      | some b => same a b
      | none => false) && sameMembers rest others
termination_by structural members => members

end

/-- Equality of values that may be missing. -/
def sameOption : Option Json → Option Json → Bool
  | none, none => true
  | some a, some b => same a b
  | _, _ => false

/-! ## Digests -/

/-- One entry of a digest. -/
inductive Mark where
  /-- Which of the alternatives of a type it is. -/
  | kind (index : Nat)
  /-- A truth value. -/
  | bool (value : Bool)
  /-- The length of a list. -/
  | size (length : Nat)
  /-- An integer. -/
  | integer (value : Int)
  /-- A double, zero without its sign. -/
  | double (value : Binary64)
  /-- A text. -/
  | text (value : String)
deriving DecidableEq, Repr

/-- The digest of a number. -/
def Number.digest : Number → List Mark
  | .integer n => [.integer n]
  | .double x => [.double (if x.isZero then Binary64.zero false else x)]

/-- Digests under keys, by key, in one list. -/
def joinByKey (digests : List (String × List Mark)) : List Mark :=
  (digests.mergeSort fun a b => a.1 ≤ b.1).flatMap fun entry => .text entry.1 :: entry.2

mutual

/-- What identifies a value. -/
def digest : Json → List Mark
  | .null => [.kind 0]
  | .bool value => [.kind 1, .bool value]
  | .number value => .kind 2 :: value.digest
  | .string text => [.kind 3, .text text]
  | .array items => .kind 4 :: .size items.length :: digestItems items
  | .object members => .kind 5 :: joinByKey (digestMembers members)
termination_by structural value => value

/-- The digests of some values, one after the other. -/
def digestItems : List Json → List Mark
  | [] => []
  | item :: rest => digest item ++ digestItems rest
termination_by structural items => items

/-- The digests of some members under their keys. -/
def digestMembers : List (String × Json) → List (String × List Mark)
  | [] => []
  | (key, value) :: rest => (key, digest value) :: digestMembers rest
termination_by structural members => members

end

/-! ## Tests -/

example : same (.object [("a", .null), ("b", .bool true)])
    (.object [("b", .bool true), ("a", .null)]) = true := by decide
example : same (.number (.integer 0)) (.number (.double (Binary64.zero false))) = false := by
  decide
example : same (.number (.double (Binary64.zero true)))
    (.number (.double (Binary64.zero false))) = true := by decide
example : same (.array [.null]) (.array [.null, .null]) = false := by decide
example : digest (.object [("b", .null), ("a", .bool true)])
    = [.kind 5, .text "a", .kind 1, .bool true, .text "b", .kind 0] := by cbv

end Json

end SchemaDoc
