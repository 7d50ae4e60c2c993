import SchemaDoc.Json.Basic
import SchemaDoc.Text.Hexadecimal
import SchemaDoc.Number.Shortest

/-!
# JSON text

`Json.compact` writes a value without blanks, `Json.pretty` with each member and
item on a line of its own, indented by two blanks.  Members come in the order of
the object.  Strings escape the quote, the backslash and the control characters
below U+0020 and nothing else.  A double is written with the fewest digits that
read back, and always in a form that no integer has.
-/

namespace SchemaDoc.Json

/-! ## Strings -/

/-- A character as it stands in a string. -/
def escapeChar (c : Char) : List Char :=
  match c with
  | '"' => ['\\', '"']
  | '\\' => ['\\', '\\']
  | '\x08' => ['\\', 'b']
  | '\x0c' => ['\\', 'f']
  | '\n' => ['\\', 'n']
  | '\r' => ['\\', 'r']
  | '\t' => ['\\', 't']
  | c =>
    if c.toNat < 0x20 then
      ['\\', 'u', '0', '0', Text.lowerHex (c.toNat / 16), Text.lowerHex (c.toNat % 16)]
    else [c]

/-- A text in quotes. -/
def quote (text : String) : String :=
  String.ofList ('"' :: (text.toList.flatMap escapeChar ++ ['"']))

/-! ## Numbers -/

/-- Doubles are positional from `10^-5` to below `10^16`, and whole ones have the
fraction `.0` there. -/
def doubleLayout : Decimal.Layout :=
  { low := -5, high := 15, wholeSuffix := ".0", upMark := "e+", downMark := "e-" }

/-- The text of a double. -/
def renderDouble (x : Binary64) : String :=
  let sign := if x.negative then "-" else ""
  if x.isZero then sign ++ "0.0" else sign ++ doubleLayout.write (Decimal.shortest x)

/-- The text of a number. -/
def Number.render : Number → String
  | .integer n => toString n
  | .double x => renderDouble x

/-! ## Values -/

mutual

/-- The text of a value without blanks. -/
def compact : Json → String
  | .null => "null"
  | .bool value => if value then "true" else "false"
  | .number value => value.render
  | .string text => quote text
  | .array items => "[" ++ String.intercalate "," (compactItems items) ++ "]"
  | .object members => "\x7b" ++ String.intercalate "," (compactMembers members) ++ "\x7d"
termination_by structural value => value

/-- The texts of some values. -/
def compactItems : List Json → List String
  | [] => []
  | item :: rest => compact item :: compactItems rest
termination_by structural items => items

/-- The texts of some members. -/
def compactMembers : List (String × Json) → List String
  | [] => []
  | (key, value) :: rest => (quote key ++ ":" ++ compact value) :: compactMembers rest
termination_by structural members => members

end

/-- A line break and the blanks before a line at some depth. -/
def lineBreak (depth : Nat) : String := String.ofList ('\n' :: List.replicate (2 * depth) ' ')

/-- Lines between two brackets, one step deeper than the brackets. -/
def block (depth : Nat) (opening closing : String) : List String → String
  | [] => opening ++ closing
  | lines =>
    opening ++ lineBreak (depth + 1) ++ String.intercalate ("," ++ lineBreak (depth + 1)) lines ++
      lineBreak depth ++ closing

mutual

/-- The text of a value that starts at some depth of indentation. -/
def prettyAt (depth : Nat) : Json → String
  | .null => "null"
  | .bool value => if value then "true" else "false"
  | .number value => value.render
  | .string text => quote text
  | .array items => block depth "[" "]" (prettyItems (depth + 1) items)
  | .object members => block depth "\x7b" "\x7d" (prettyMembers (depth + 1) members)
termination_by structural value => value

/-- The texts of some values at one depth. -/
def prettyItems (depth : Nat) : List Json → List String
  | [] => []
  | item :: rest => prettyAt depth item :: prettyItems depth rest
termination_by structural items => items

/-- The texts of some members at one depth. -/
def prettyMembers (depth : Nat) : List (String × Json) → List String
  | [] => []
  | (key, value) :: rest =>
    (quote key ++ ": " ++ prettyAt depth value) :: prettyMembers depth rest
termination_by structural members => members

end

/-- The text of a value on several lines. -/
def pretty (value : Json) : String := prettyAt 0 value

theorem compactItems_eq_map (items : List Json) : compactItems items = items.map compact := by
  induction items with
  | nil => rfl
  | cons item rest ih => simp [compactItems, ih]

theorem compactMembers_eq_map (members : List (String × Json)) :
    compactMembers members = members.map fun pair => quote pair.1 ++ ":" ++ compact pair.2 := by
  induction members with
  | nil => rfl
  | cons pair rest ih => simp [compactMembers, ih]

/-! ## Tests -/

section Tests

/-- The text of a fraction read as a double. -/
def writeFraction (num den : Nat) : Option String :=
  (Binary64.ofQuotient? false num den).map renderDouble

example : compact (.object [("a\"\n", .array [.null, .bool true]), ("", .ofNat 7)])
    = "\x7b\"a\\\"\\n\":[null,true],\"\":7\x7d" := by decide +kernel
example : pretty (.object [("a", .array []), ("b", .array [.ofNat 1, .ofNat 2])])
    = "\x7b\n  \"a\": [],\n  \"b\": [\n    1,\n    2\n  ]\n\x7d" := by decide +kernel
example : quote "é\x7f/\x01\x1f" = "\"é\x7f/\\u0001\\u001f\"" := by decide +kernel
example : writeFraction 1 1 = some "1.0" := by decide +kernel
example : writeFraction (10 ^ 15) 1 = some "1000000000000000.0" := by decide +kernel
example : writeFraction (10 ^ 16) 1 = some "1e+16" := by decide +kernel
example : writeFraction 1234 (10 ^ 8) = some "0.00001234" := by decide +kernel
example : writeFraction 15 (10 ^ 10) = some "1.5e-9" := by decide +kernel
example : writeFraction 1 (10 ^ 6) = some "1e-6" := by decide +kernel
example : renderDouble (Binary64.zero true) = "-0.0" := by decide +kernel

end Tests

end SchemaDoc.Json
