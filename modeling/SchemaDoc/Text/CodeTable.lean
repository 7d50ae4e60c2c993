import SchemaDoc.Text.Hexadecimal
import SchemaDoc.Text.Split

/-!
# Tables of code points

A table of code points is written as lines of words with blanks between them.  A word is
a code point in hexadecimal, or a run as its first and its last with a dash.  Three kinds
of table are read from such words.

* `Runs` is a set: `41-5A B5`.
* `Valued` gives every run a value: `41-5A=61 B5=3BC`.
* `Texts` gives a text to each of some code points that follow each other, after the
  first of them: `BC= 31+2044+34 31+2044+32`.
-/

namespace SchemaDoc.Text

/-- The code point that hexadecimal digits write. -/
def codeOf (digits : List Char) : Nat :=
  digits.foldl (fun code c => 16 * code + (hexDigit? c).getD 0) 0

/-- The words of some lines. -/
def words (lines : List String) : List (List Char) :=
  lines.flatMap fun line => splitOn ' ' line.toList

/-! ## Sets -/

/-- A set of code points, as the first and the last of each run. -/
abbrev Runs := List (Nat × Nat)

/-- The run that a word writes. -/
def readRun (word : List Char) : Nat × Nat :=
  match cut? '-' word with
  | some (first, last) => (codeOf first, codeOf last)
  | none => (codeOf word, codeOf word)

/-- The set that some lines write. -/
def Runs.read (lines : List String) : Runs := (words lines).map readRun

/-- Whether a character is in a set. -/
def Runs.has (runs : Runs) (c : Char) : Bool :=
  runs.any fun (first, last) => first ≤ c.toNat && c.toNat ≤ last

/-! ## Values -/

/-- Runs of code points, each with its value. -/
abbrev Valued := List ((Nat × Nat) × Nat)

/-- The run and the value that a word writes. -/
def readValued (word : List Char) : (Nat × Nat) × Nat :=
  match cut? '=' word with
  | some (run, value) => (readRun run, codeOf value)
  | none => (readRun word, 0)

/-- The values that some lines write. -/
def Valued.read (lines : List String) : Valued := (words lines).map readValued

/-- The run that a character is in, and its value. -/
def Valued.find? (table : Valued) (c : Char) : Option ((Nat × Nat) × Nat) :=
  List.find? (fun entry => entry.1.1 ≤ c.toNat && c.toNat ≤ entry.1.2) table

/-! ## Texts -/

/-- Characters, each with its text. -/
abbrev Texts := List (Char × List Char)

/-- The texts that words write, the next of them for some code point. -/
def readTexts (next : Nat) : List (List Char) → Texts
  | [] => []
  | word :: rest =>
    match cut? '=' word with
    | some (code, _) => readTexts (codeOf code) rest
    | none =>
      (Char.ofNat next, (splitOn '+' word).map fun code => Char.ofNat (codeOf code)) ::
        readTexts (next + 1) rest

/-- The texts that some lines write. -/
def Texts.read (lines : List String) : Texts := readTexts 0 (words lines)

/-- The text of a character. -/
def Texts.get? (table : Texts) (c : Char) : Option (List Char) := List.lookup c table

/-! ## Tests -/

example : Runs.read ["41-5A B5", "AA"] = [(0x41, 0x5A), (0xB5, 0xB5), (0xAA, 0xAA)] := by
  decide +kernel
example : (Valued.read ["41-5A=61"]).find? 'B' = some ((0x41, 0x5A), 0x61) := by decide +kernel
example : (Texts.read ["BC= 31+34 31", "3A= 78"]).get? '½' = some ['1'] := by decide +kernel

end SchemaDoc.Text
