import SchemaDoc.Json.Basic
import SchemaDoc.Text.Hexadecimal
import SchemaDoc.Text.Split

/-!
# JSON pointers

A *pointer* addresses a value inside another by the steps that lead to it, each
after a slash.  A step into an object is a key, with `~` written `~0` and `/`
written `~1`; a step into an array is a position.  The empty pointer addresses the
whole value.

A pointer is followed inside one resource.  A value below the top that declares an
identifier of its own is another resource, and a pointer does not step onto it.

`unescape_escape` says that a key survives being written as a step.
-/

namespace SchemaDoc

/-- The identifier that a value declares.  One that begins with `#` declares none. -/
def Json.declaredId? (value : Json) : Option String :=
  ((value.get? "$id").bind asString?).filter fun id => id.toList.head? != some '#'

namespace Pointer

/-! ## Steps -/

/-- A key as it is written in a pointer. -/
def escape : List Char → List Char
  | [] => []
  | c :: rest =>
    if c = '~' then '~' :: '0' :: escape rest
    else if c = '/' then '~' :: '1' :: escape rest
    else c :: escape rest

/-- A key read from a pointer. -/
def unescape : List Char → List Char
  | '~' :: '1' :: rest => '/' :: unescape rest
  | '~' :: '0' :: rest => '~' :: unescape rest
  | c :: rest => c :: unescape rest
  | [] => []

/-- The position that a step writes: decimal digits, maybe after a plus sign. -/
def index? (step : List Char) : Option Nat :=
  let digits :=
    match step with
    | '+' :: digits => digits
    | digits => digits
  if digits ≠ [] ∧ digits.all Char.isDigit then
    some (digits.foldl (fun value d => 10 * value + Text.digitValue d) 0)
  else none

/-- The value one step below another. -/
def child? (value : Json) (step : List Char) : Option Json :=
  match value with
  | .object members => Table.get? members (String.ofList step)
  | .array items => (index? step).bind fun i => items[i]?
  | _ => none

/-- A pointer with one more step. -/
def extend (pointer : String) (key : String) : String :=
  pointer ++ "/" ++ String.ofList (escape key.toList)

/-! ## Following a pointer -/

/-- Why a pointer is not followed to its end. -/
inductive Miss where
  /-- A step leads nowhere. -/
  | nowhere
  /-- A step leads to another resource. -/
  | innerResource
deriving DecidableEq, Repr

/-- The value some steps below another. -/
def descend (value : Json) : List (List Char) → Except Miss Json
  | [] => .ok value
  | step :: rest =>
    match child? value (unescape step) with
    | none => .error .nowhere
    | some next => if next.declaredId?.isSome then .error .innerResource else descend next rest

/-- The value that a pointer addresses inside another. -/
def follow (value : Json) (pointer : String) : Except Miss Json :=
  match pointer.toList with
  | [] => .ok value
  | '/' :: path => descend value (Text.splitOn '/' path)
  | _ => .error .nowhere

theorem unescape_cons {c : Char} (h : c ≠ '~') (rest : List Char) :
    unescape (c :: rest) = c :: unescape rest := by
  rw [unescape]
  · intro more e
    exact absurd e h
  · intro more e
    exact absurd e h

/-- A key survives being written as a step. -/
theorem unescape_escape (key : List Char) : unescape (escape key) = key := by
  induction key with
  | nil => rfl
  | cons c rest ih =>
    by_cases ht : c = '~'
    · subst ht
      simp [escape, unescape, ih]
    · by_cases hs : c = '/'
      · subst hs
        simp [escape, unescape, ih]
      · rw [escape, if_neg ht, if_neg hs, unescape_cons ht, ih]

/-! ## Tests -/

section Tests

/-- A value with a key that has to be escaped. -/
def sample : Json :=
  .object [("a/~b", .array [.null, .string "x"]), ("", .string "y"),
    ("inner", .object [("$id", .string "i")])]

/-- The text of a string that a pointer addresses in the sample. -/
def textAt? (pointer : String) : Option String :=
  match follow sample pointer with
  | .ok value => value.asString?
  | .error _ => none

/-- Why a pointer is not followed in the sample. -/
def missAt? (pointer : String) : Option Miss :=
  match follow sample pointer with
  | .ok _ => none
  | .error miss => some miss

example : textAt? "/a~1~0b/+01" = some "x" := by decide +kernel
example : textAt? "/" = some "y" := by decide +kernel
example : missAt? "/a~1~0b/-0" = some .nowhere := by decide +kernel
example : missAt? "a" = some .nowhere := by decide +kernel
example : missAt? "/inner/$id" = some .innerResource := by decide +kernel

end Tests

end Pointer

end SchemaDoc
