import SchemaDoc.Ty.Basic
import SchemaDoc.Json.Printer

/-!
# The text of a type

A type is written as a *signature*, such as `{"a": integer, "b": string[]}`,
`("a" | "b")?` or `[string, integer...]`.  A union or an intersection is put in
parentheses where something is attached to it.  How a reference is written is a
parameter, since that depends on what is known about its target.
-/

namespace SchemaDoc.Ty

/-- A text, or `never` if it is empty. -/
def orNever (text : String) : String := if text = "" then "never" else text

/-- A text in parentheses if they are asked for. -/
def parenthesize (parens : Bool) (text : String) : String :=
  if parens then "(" ++ text ++ ")" else text

mutual

/-- The text of a type, in parentheses if they are asked for and make a difference. -/
def printWith (showReference : String → Bool → String) (parens : Bool) : Ty → String
  | ⟨_, some value, .leaf _⟩ => value.compact
  | ⟨_, none, .leaf leaf⟩ => leaf.keyword
  | ⟨_, _, .reference target⟩ => showReference target parens
  | ⟨_, _, .object [] none⟩ => "\x7b\x7d"
  | ⟨_, _, .object [] (some rest)⟩ =>
    "\x7bstring: " ++ printWith showReference false rest ++ "\x7d"
  | ⟨_, _, .object members _⟩ =>
    "\x7b" ++ String.intercalate ", " (printMembers showReference members) ++ "\x7d"
  | ⟨_, _, .array _ item⟩ => printWith showReference true item ++ "[]"
  | ⟨_, _, .tuple items tail⟩ =>
    let tailText :=
      match tail with
      | some ty => [printWith showReference true ty ++ "..."]
      | none => []
    "[" ++ String.intercalate ", " (printItems showReference false items ++ tailText) ++ "]"
  | ⟨_, _, .union _ items nullable⟩ =>
    let joined := orNever (String.intercalate " | " (printPresent showReference items))
    if nullable then parenthesize (2 < items.length) joined ++ "?"
    else parenthesize parens joined
  | ⟨_, _, .intersection items⟩ =>
    parenthesize parens (orNever (String.intercalate " & " (printItems showReference true items)))
termination_by structural ty => ty

/-- The texts of some members. -/
def printMembers (showReference : String → Bool → String) : List (String × Ty) → List String
  | [] => []
  | (name, ty) :: rest =>
    (Json.quote name ++ ": " ++ printWith showReference false ty) :: printMembers showReference rest
termination_by structural members => members

/-- The texts of some types. -/
def printItems (showReference : String → Bool → String) (parens : Bool) : List Ty → List String
  | [] => []
  | ty :: rest => printWith showReference parens ty :: printItems showReference parens rest
termination_by structural items => items

/-- The texts of the types that are not null. -/
def printPresent (showReference : String → Bool → String) : List Ty → List String
  | [] => []
  | ty :: rest =>
    if ty.isNull then printPresent showReference rest
    else printWith showReference true ty :: printPresent showReference rest
termination_by structural items => items

end

/-- The text of a type with references as the names of their targets. -/
def printBare (ty : Ty) (parens : Bool) : String := printWith (fun target _ => target) parens ty

theorem printMembers_eq_map (showReference : String → Bool → String)
    (members : List (String × Ty)) :
    printMembers showReference members =
      members.map fun member => Json.quote member.1 ++ ": " ++ printWith showReference false member.2 := by
  induction members with
  | nil => rfl
  | cons member rest ih => simp [printMembers, ih]

theorem printItems_eq_map (showReference : String → Bool → String) (parens : Bool)
    (items : List Ty) :
    printItems showReference parens items = items.map (printWith showReference parens) := by
  induction items with
  | nil => rfl
  | cons item rest ih => simp [printItems, ih]

theorem printPresent_eq_map (showReference : String → Bool → String) (items : List Ty) :
    printPresent showReference items =
      (items.filter fun item => !item.isNull).map (printWith showReference true) := by
  induction items with
  | nil => rfl
  | cons item rest ih =>
    by_cases h : item.isNull = true <;> simp [printPresent, h, ih]

/-! ## Tests -/

section Tests

example : printBare (ofShape (.object [("a", ofLeaf .integer),
      ("b", ofShape (.array false (ofLeaf .string)))] (some any))) false
    = "\x7b\"a\": integer, \"b\": string[]\x7d" := by decide +kernel
example : printBare (ofShape (.object [] (some (ofLeaf .boolean)))) false
    = "\x7bstring: boolean\x7d" := by decide +kernel
example : printBare (ofShape (.array false (ofShape (.union .oneOf
      [ofLeaf .string, ofLeaf .integer] false)))) false = "(string | integer)[]" := by
  decide +kernel
example : printBare (ofShape (.union .oneOf [ofLeaf .string, ofLeaf .null] true)) true
    = "string?" := by decide +kernel
example : printBare (ofShape (.union .oneOf
      [ofLeaf .string, ofLeaf .integer, ofLeaf .null] true)) true = "(string | integer)?" := by
  decide +kernel
example : printBare (ofShape (.tuple [ofLeaf .string] (some (ofShape (.union .oneOf
      [ofLeaf .integer, ofLeaf .boolean] false))))) false = "[string, (integer | boolean)...]" := by
  decide +kernel
example : printBare (ofShape (.intersection [reference "A", reference "B"])) true = "(A & B)" := by
  decide +kernel
example : printBare (ofShape (.union .oneOf [] false)) false = "never" := by decide +kernel

end Tests

end SchemaDoc.Ty
