import SchemaDoc.Json.Basic
import SchemaDoc.Text.Hexadecimal

/-!
# Reading JSON

`Json.parse?` reads a text as one JSON value.  It works in two passes.  The first
walks the characters with a small state, `Scan`, and yields the *lexemes* of the
text: brackets, commas, colons and scalars.  The second walks the lexemes with a
stack of the arrays and objects that are open, `Frame`, and yields the value.
Each pass is one fold over a list.

The rules that matter beyond the grammar:

* at most 127 arrays and objects are open at a time;
* a member that comes again replaces the value and keeps the place of the first;
* an escaped surrogate must be one of a pair;
* an integer is kept as one if it fits in 64 bits, signed or not, and `-0` does
  not; every other number is a double, see `readDouble?`.
-/

namespace SchemaDoc.Json

/-! ## Numbers -/

/-- Read digits into a number while it stays within the limit.  The digits that
are left over are returned. -/
def absorb (limit : Nat) : Nat → List Char → Nat × List Char
  | value, [] => (value, [])
  | value, d :: ds =>
    if value * 10 + Text.digitValue d ≤ limit then absorb limit (value * 10 + Text.digitValue d) ds
    else (value, d :: ds)

/-- The greatest significand that is kept. -/
def significandLimit : Nat := Nat.pow 2 64 - 1

/-- The power `10^k` as a double. -/
def powerOfTen (k : Nat) : Option Binary64 := Binary64.ofNat? (Nat.pow 10 k)

/-- The double `significand · 10^exponent`.  Significand and power are rounded
before the product is, and a power below `10^-308` is applied in two steps. -/
def scaleByTen (significand : Nat) : Int → Option Binary64
  | .ofNat k => do
    if k ≤ 308 then (← Binary64.ofNat? significand).mul? (← powerOfTen k)
    else if significand = 0 then some (Binary64.zero false)
    else none
  | .negSucc j => do
    let k := j + 1
    let start ← Binary64.ofNat? significand
    if k ≤ 308 then start.div? (← powerOfTen k)
    else if k ≤ 616 then (← start.div? (← powerOfTen 308)).div? (← powerOfTen (k - 308))
    else some (Binary64.zero false)

/-- The double with the given digits.  Digits enter the significand while it fits
in 64 bits.  Further digits of the whole part count for the exponent and further
digits of the fraction for nothing.  There is no result beyond the largest double. -/
def readDouble? (negative : Bool) (whole fraction : List Char) (exponent : Int) : Option Number :=
  let (upper, unused) := absorb significandLimit 0 whole
  let (significand, dropped) := absorb significandLimit upper fraction
  let places := (unused.length : Int) - (fraction.length - dropped.length : Nat) + exponent
  (scaleByTen significand places).map fun x => .double (x.withSign negative)

/-- The number without fraction and exponent that has the given digits. -/
def readInteger? (negative : Bool) (digits : List Char) : Option Number :=
  match absorb significandLimit 0 digits with
  | (n, []) =>
    if negative then
      if 0 < n ∧ n ≤ Nat.pow 2 63 then some (.integer (-n)) else readDouble? true digits [] 0
    else some (.integer n)
  | _ => readDouble? negative digits [] 0

/-- The value of an exponent, sign and digits. -/
def readExponent? : List Char → Option Int
  | '-' :: ds => if ds ≠ [] ∧ ds.all Char.isDigit then some (-(ds.foldl step 0)) else none
  | '+' :: ds => if ds ≠ [] ∧ ds.all Char.isDigit then some (ds.foldl step 0) else none
  | ds => if ds ≠ [] ∧ ds.all Char.isDigit then some (ds.foldl step 0) else none
where
  /-- One more digit. -/
  step (value : Int) (d : Char) : Int := value * 10 + Text.digitValue d

/-- Whether digits may stand before the point: no zero in front of another digit. -/
def isWhole : List Char → Bool
  | [] => false
  | ['0'] => true
  | d :: _ => d != '0'

/-- The number that a word of the text writes. -/
def readNumber? (word : List Char) : Option Number :=
  let (negative, body) :=
    match word with
    | '-' :: body => (true, body)
    | body => (false, body)
  let whole := body.takeWhile Char.isDigit
  if !isWhole whole then none
  else
    match body.dropWhile Char.isDigit with
    | [] => readInteger? negative whole
    | '.' :: rest =>
      let fraction := rest.takeWhile Char.isDigit
      if fraction.isEmpty then none
      else
        match rest.dropWhile Char.isDigit with
        | [] => readDouble? negative whole fraction 0
        | mark :: tail =>
          if mark == 'e' || mark == 'E' then
            (readExponent? tail).bind fun e => readDouble? negative whole fraction e
          else none
    | mark :: tail =>
      if mark == 'e' || mark == 'E' then
        (readExponent? tail).bind fun e => readDouble? negative whole [] e
      else none

/-! ## Lexemes -/

/-- A piece of a JSON text. -/
inductive Lexeme where
  | openObject
  | closeObject
  | openArray
  | closeArray
  | comma
  | colon
  /-- A string, a number, a truth value or null. -/
  | scalar (value : Json)

/-- Where in a lexeme the scan stands.  Characters read are newest first. -/
inductive Scan where
  /-- Between two lexemes. -/
  | between
  /-- In a word: a name or a number. -/
  | word (read : List Char)
  /-- In a string. -/
  | text (read : List Char)
  /-- In a string, after a backslash. -/
  | escape (read : List Char)
  /-- In a string, with some hexadecimal digits of an escape to come, after the
  first unit of a surrogate pair if there is one. -/
  | unit (read : List Char) (high : Option Nat) (left value : Nat)
  /-- In a string, after the first unit of a surrogate pair; with or without the
  backslash of the second. -/
  | pair (read : List Char) (high : Nat) (slash : Bool)

/-- The value of a word. -/
def readWord? (word : List Char) : Option Json :=
  if word = "null".toList then some .null
  else if word = "true".toList then some (.bool true)
  else if word = "false".toList then some (.bool false)
  else (readNumber? word).map .number

/-- A blank of JSON. -/
def isSpace (c : Char) : Bool := c == ' ' || c == '\t' || c == '\n' || c == '\r'

/-- A character between two lexemes. -/
def scanBetween (c : Char) : Option (List Lexeme × Scan) :=
  match c with
  | '\x7b' => some ([.openObject], .between)
  | '\x7d' => some ([.closeObject], .between)
  | '[' => some ([.openArray], .between)
  | ']' => some ([.closeArray], .between)
  | ',' => some ([.comma], .between)
  | ':' => some ([.colon], .between)
  | '"' => some ([], .text [])
  | c => some ([], if isSpace c then .between else .word [c])

/-- Whether a character ends a word. -/
def endsWord (c : Char) : Bool := isSpace c || "\x7b\x7d[],:\"".toList.contains c

/-- A complete UTF-16 unit of an escape. -/
def scanUnit (read : List Char) (value : Nat) : Option Nat → Option Scan
  | none =>
    if 0xD800 ≤ value ∧ value < 0xDC00 then some (.pair read value false)
    else if 0xDC00 ≤ value ∧ value < 0xE000 then none
    else some (.text (Char.ofNat value :: read))
  | some high =>
    if 0xDC00 ≤ value ∧ value < 0xE000 then
      some (.text (Char.ofNat (0x10000 + (high - 0xD800) * 0x400 + (value - 0xDC00)) :: read))
    else none

/-- The character that a simple escape stands for. -/
def unescape? : Char → Option Char
  | '"' => some '"'
  | '\\' => some '\\'
  | '/' => some '/'
  | 'b' => some '\x08'
  | 'f' => some '\x0c'
  | 'n' => some '\n'
  | 'r' => some '\r'
  | 't' => some '\t'
  | _ => none

/-- One character: the lexemes it completes and where the scan then stands. -/
def Scan.step : Scan → Char → Option (List Lexeme × Scan)
  | .between, c => scanBetween c
  | .word read, c =>
    if endsWord c then do
      let value ← readWord? read.reverse
      let (lexemes, next) ← scanBetween c
      some (.scalar value :: lexemes, next)
    else some ([], .word (c :: read))
  | .text read, c =>
    if c == '"' then some ([.scalar (.string (String.ofList read.reverse))], .between)
    else if c == '\\' then some ([], .escape read)
    else if c.toNat < 0x20 then none
    else some ([], .text (c :: read))
  | .escape read, c =>
    if c == 'u' then some ([], .unit read none 4 0)
    else (unescape? c).map fun e => ([], .text (e :: read))
  | .unit read high left value, c => do
    let value := value * 16 + (← Text.hexDigit? c)
    if left ≤ 1 then (scanUnit read value high).map fun next => ([], next)
    else some ([], .unit read high (left - 1) value)
  | .pair read high slash, c =>
    if slash then if c == 'u' then some ([], .unit read (some high) 4 0) else none
    else if c == '\\' then some ([], .pair read high true) else none

/-- The lexemes of a text from some point of the scan on. -/
def lexemesFrom : Scan → List Char → Option (List Lexeme)
  | .between, [] => some []
  | .word read, [] => (readWord? read.reverse).map fun value => [.scalar value]
  | _, [] => none
  | scan, c :: rest => do
    let (lexemes, next) ← scan.step c
    some (lexemes ++ (← lexemesFrom next rest))
termination_by structural _ text => text

/-! ## Values -/

/-- An array or object that is open, with what it has so far. -/
inductive Frame where
  /-- An array with its items, newest first. -/
  | array (items : List Json)
  /-- An object with its members, and the key of the next one once it is read. -/
  | object (members : Table String Json) (key : Option String)

/-- What may come next. -/
inductive Expect where
  | value
  /-- A value or the end of an array without items. -/
  | valueOrEnd
  | key
  /-- A key or the end of an object without members. -/
  | keyOrEnd
  | colon
  /-- The value is complete; what comes next is up to the innermost frame. -/
  | after (value : Json)

/-- Where the second pass stands. -/
structure Parser where
  /-- The arrays and objects that are open, innermost first. -/
  frames : List Frame
  /-- What may come next. -/
  expect : Expect

/-- The greatest number of arrays and objects that may be open. -/
def maxDepth : Nat := 127

/-- Begin a value inside some frames. -/
def Parser.begin (frames : List Frame) : Lexeme → Option Parser
  | .scalar value => some ⟨frames, .after value⟩
  | .openArray =>
    if frames.length < maxDepth then some ⟨.array [] :: frames, .valueOrEnd⟩ else none
  | .openObject =>
    if frames.length < maxDepth then some ⟨.object [] none :: frames, .keyOrEnd⟩ else none
  | _ => none

/-- Read a key of the innermost frame. -/
def Parser.readKey : List Frame → Lexeme → Option Parser
  | .object members _ :: outer, .scalar (.string key) =>
    some ⟨.object members (some key) :: outer, .colon⟩
  | _, _ => none

/-- Go on after a value of the innermost frame. -/
def Parser.continue (value : Json) : List Frame → Lexeme → Option Parser
  | .array items :: outer, .comma => some ⟨.array (value :: items) :: outer, .value⟩
  | .array items :: outer, .closeArray =>
    some ⟨outer, .after (.array (value :: items).reverse)⟩
  | .object members (some key) :: outer, .comma =>
    some ⟨.object (members.put key value) none :: outer, .key⟩
  | .object members (some key) :: outer, .closeObject =>
    some ⟨outer, .after (.object (members.put key value))⟩
  | _, _ => none

/-- One lexeme. -/
def Parser.step (parser : Parser) (lexeme : Lexeme) : Option Parser :=
  match parser.expect, lexeme, parser.frames with
  | .valueOrEnd, .closeArray, .array items :: outer => some ⟨outer, .after (.array items)⟩
  | .keyOrEnd, .closeObject, .object members _ :: outer =>
    some ⟨outer, .after (.object members)⟩
  | .value, lexeme, frames => Parser.begin frames lexeme
  | .valueOrEnd, lexeme, frames => Parser.begin frames lexeme
  | .key, lexeme, frames => Parser.readKey frames lexeme
  | .keyOrEnd, lexeme, frames => Parser.readKey frames lexeme
  | .colon, .colon, frames => some ⟨frames, .value⟩
  | .colon, _, _ => none
  | .after value, lexeme, frames => Parser.continue value frames lexeme

/-- The value of a text, if it is JSON. -/
def parse? (text : String) : Option Json := do
  let lexemes ← lexemesFrom .between text.toList
  let parser ← lexemes.foldlM Parser.step ⟨[], .value⟩
  match parser with
  | ⟨[], .after value⟩ => some value
  | _ => none

/-! ## Tests -/

section Tests

/-- Whether a text reads as a value. -/
def reads (text : String) (value : Json) : Bool :=
  match parse? text with
  | some read => same read value && same value read
  | none => false

example : reads " \x7b\"a\":1,\"b\":[],\"a\":3\x7d\n"
    (.object [("a", .ofNat 3), ("b", .array [])]) = true := by decide +kernel
example : reads "\"\\u00e9\\ud83d\\ude42\"" (.string "é🙂") = true := by decide +kernel
example : reads "-9223372036854775808" (.number (.integer (-(2 ^ 63)))) = true := by
  decide +kernel
example : reads "-0" (.number (.double (Binary64.zero true))) = true := by decide +kernel
example : reads "1e-400" (.number (.double (Binary64.zero false))) = true := by decide +kernel
example : (["", "[1,]", "\x7b\"a\":1,\x7d", "01", "1.", ".5", "+1", "1e999", "\"\\ud83d\"",
    "\"\n\"", "nul", "1 2", "[", "]", "\x7ba:1\x7d", "\uFEFF1"].all
    fun text => (parse? text).isNone) = true := by decide +kernel

end Tests

end SchemaDoc.Json
