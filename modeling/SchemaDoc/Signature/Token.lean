import SchemaDoc.Text.Blank
import SchemaDoc.Text.Word

/-!
# Tokens of a signature

A *signature* is the text of a type, such as `[string, (integer | Root#Item)...]`.
Its tokens are what a page highlights and links.  A *lexeme* is a stretch of the
text with the token it stands for; blanks stand for no token.  At each place the
first of these rules that applies gives the lexeme:

* blanks;
* an ellipsis of three dots;
* a literal between two quotes of one kind, where a backslash protects the next
  character unless that is a line feed;
* a number, with a fraction and an exponent if they follow;
* a keyword that ends where a word ends, with the blanks and the question mark
  after it;
* a name: a word with `#`, `/`, `$` and `-` in it and single dots between such
  words, after a scheme and `://` if there is one;
* one of `=`, `:`, `,`, `|` and `&`;
* a run of other ASCII punctuation;
* any other character.

Every recursive definition is structural.
-/

namespace SchemaDoc

/-- A token of a signature. -/
inductive Token where
  /-- Three dots. -/
  | ellipsis
  /-- A literal with its quotes. -/
  | literal (text : String)
  | number (text : String)
  /-- The name of a built-in type or value; optional if a question mark follows. -/
  | keyword (text : String) (optional : Bool)
  /-- Anything that may name a documented type. -/
  | name (text : String)
  /-- One of `=`, `:`, `,`, `|` and `&`. -/
  | separator (mark : Char)
  /-- A run of other ASCII punctuation. -/
  | marks (text : String)
  /-- Any other character. -/
  | other (char : Char)
deriving DecidableEq, Repr

namespace Token

/-- A token as a rendered signature shows it, with the blanks around it. -/
def display : Token → String
  | .ellipsis => "..."
  | .literal text => text
  | .number text => text
  | .keyword text optional => if optional then text ++ "?" else text
  | .name text => text
  | .separator mark =>
    if mark == '=' || mark == '|' || mark == '&' then String.ofList [' ', mark, ' ']
    else String.ofList [mark, ' ']
  | .marks text => text
  | .other char => String.ofList [char]

/-! ## The rules

Each rule is given what is left of the text and yields the stretch at its start
that it applies to. -/

/-- Blanks. -/
def blanks? (cs : List Char) : Option (List Char) :=
  let run := cs.takeWhile Text.isBlank
  if run.isEmpty then none else some run

/-- Three dots. -/
def ellipsis? : List Char → Option (List Char)
  | '.' :: '.' :: '.' :: _ => some ['.', '.', '.']
  | _ => none

/-- The rest of a literal, up to and with the closing quote. -/
def literalRest? (quote : Char) : List Char → Option (List Char)
  | [] => none
  | '\\' :: c :: rest =>
    if c == '\n' then none else (literalRest? quote rest).map fun taken => '\\' :: c :: taken
  | c :: rest =>
    if c == quote then some [c]
    else if c == '\\' then none
    else (literalRest? quote rest).map fun taken => c :: taken

/-- The characters that quote a literal: `"`, `'` and the grave accent. -/
def isQuote (c : Char) : Bool := c == '"' || c == '\x27' || c == '\x60'

/-- A literal. -/
def literal? : List Char → Option (List Char)
  | c :: rest => if isQuote c then (literalRest? c rest).map fun taken => c :: taken else none
  | [] => none

/-- The exponent at the start of some characters, or nothing. -/
def exponent : List Char → List Char
  | mark :: rest =>
    if mark == 'e' || mark == 'E' then
      let (sign, digits) :=
        match rest with
        | '+' :: more => (['+'], more.takeWhile Text.isDigit)
        | '-' :: more => (['-'], more.takeWhile Text.isDigit)
        | more => ([], more.takeWhile Text.isDigit)
      if digits.isEmpty then [] else mark :: (sign ++ digits)
    else []
  | [] => []

/-- A number: digits and maybe a fraction, or a fraction, and maybe an exponent. -/
def number? (cs : List Char) : Option (List Char) :=
  let whole := cs.takeWhile Text.isDigit
  match cs.dropWhile Text.isDigit with
  | '.' :: rest =>
    let fraction := rest.takeWhile Text.isDigit
    if whole.isEmpty && fraction.isEmpty then none
    else some (whole ++ '.' :: (fraction ++ exponent (rest.dropWhile Text.isDigit)))
  | rest => if whole.isEmpty then none else some (whole ++ exponent rest)

/-- The names of built-in types and values. -/
def keywords : List (List Char) :=
  ["null", "true", "false", "boolean", "integer", "number", "string", "any", "never", "object",
    "set", "array"].map String.toList

/-- Whether a word ends before some characters. -/
def atWordEnd : List Char → Bool
  | [] => true
  | c :: _ => !Text.isWord c

/-- A keyword, with the whole stretch and whether it is marked optional. -/
def keyword? (cs : List Char) : Option (List Char × List Char × Bool) :=
  (keywords.find? fun word => word.isPrefixOf cs && atWordEnd (cs.drop word.length)).map
    fun word =>
      let rest := cs.drop word.length
      let before := rest.takeWhile Text.isBlank
      match rest.dropWhile Text.isBlank with
      | '?' :: more => (word, word ++ before ++ '?' :: more.takeWhile Text.isBlank, true)
      | _ => (word, word ++ before, false)

/-- The characters inside a word of a name. -/
def isNameChar (c : Char) : Bool :=
  Text.isWord c || c == '#' || c == '/' || c == '$' || c == '-'

/-- The characters of a scheme after the first. -/
def isSchemeChar (c : Char) : Bool := Text.isWord c || c == '+' || c == '.' || c == '-'

/-- A name after its first character.  A dot belongs to it if another word of the
name follows. -/
def nameRest : List Char → List Char
  | '.' :: c :: rest => if isNameChar c then '.' :: c :: nameRest rest else []
  | c :: rest => if isNameChar c then c :: nameRest rest else []
  | [] => []

/-- A name without a scheme. -/
def plainName? : List Char → Option (List Char)
  | c :: rest => if Text.isWord c then some (c :: nameRest rest) else none
  | [] => none

/-- A name. -/
def name? : List Char → Option (List Char)
  | c :: rest =>
    let schemed : Option (List Char) :=
      if c.isAlpha then
        match rest.dropWhile isSchemeChar with
        | ':' :: '/' :: '/' :: more =>
          (plainName? more).map fun name =>
            c :: (rest.takeWhile isSchemeChar ++ ':' :: '/' :: '/' :: name)
        | _ => none
      else none
    schemed.or (plainName? (c :: rest))
  | [] => none

/-- The characters that separate the parts of a signature. -/
def isSeparator (c : Char) : Bool := c == '=' || c == ':' || c == ',' || c == '|' || c == '&'

/-- A character that separates. -/
def separator? : List Char → Option Char
  | c :: _ => if isSeparator c then some c else none
  | [] => none

/-- The ASCII punctuation that comes in runs. -/
def isMark (c : Char) : Bool := "-!#$%()*+/;<>?@[]^_\x7b\x7d~".toList.contains c

/-- A run of punctuation. -/
def marks? (cs : List Char) : Option (List Char) :=
  let run := cs.takeWhile isMark
  if run.isEmpty then none else some run

/-! ## Lexemes -/

/-- A stretch of a signature and the token it stands for. -/
structure Lexeme where
  /-- The stretch. -/
  text : List Char
  /-- The token, unless the stretch is blank. -/
  token : Option Token
deriving DecidableEq, Repr

/-- A lexeme whose token carries the stretch. -/
def Lexeme.carrying (make : String → Token) (text : List Char) : Lexeme :=
  ⟨text, some (make (String.ofList text))⟩

/-- The rules in their order. -/
def rules : List (List Char → Option Lexeme) :=
  [fun cs => (blanks? cs).map fun run => ⟨run, none⟩,
    fun cs => (ellipsis? cs).map fun dots => ⟨dots, some .ellipsis⟩,
    fun cs => (literal? cs).map (Lexeme.carrying .literal),
    fun cs => (number? cs).map (Lexeme.carrying .number),
    fun cs => (keyword? cs).map fun (word, stretch, optional) =>
      ⟨stretch, some (.keyword (String.ofList word) optional)⟩,
    fun cs => (name? cs).map (Lexeme.carrying .name),
    fun cs => (separator? cs).map fun mark => ⟨[mark], some (.separator mark)⟩,
    fun cs => (marks? cs).map (Lexeme.carrying .marks)]

/-- The lexeme at the start of a text. -/
def Lexeme.first (c : Char) (rest : List Char) : Lexeme :=
  (rules.findSome? fun rule => rule (c :: rest)).getD ⟨[c], some (.other c)⟩

/-- The lexemes of a text after some characters that are taken already. -/
def lexemesAfter : Nat → List Char → List Lexeme
  | _, [] => []
  | taken + 1, _ :: rest => lexemesAfter taken rest
  | 0, c :: rest =>
    let lexeme := Lexeme.first c rest
    lexeme :: lexemesAfter (lexeme.text.length - 1) rest
termination_by structural _ cs => cs

/-- The lexemes of a text. -/
def lexemes (text : List Char) : List Lexeme := lexemesAfter 0 text

/-- The tokens of a signature. -/
def tokenize (signature : String) : List Token :=
  (lexemes signature.toList).filterMap Lexeme.token

/-- A signature with the blanks that its tokens ask for. -/
def normalize (signature : String) : String :=
  let shown := (tokenize signature).flatMap fun token => token.display.toList
  String.ofList (Text.trim shown)

/-! ## Tests -/

example : tokenize "[string?, 1.5...]" =
    [.marks "[", .keyword "string" true, .separator ',', .number "1.5", .ellipsis, .marks "]"] := by
  decide +kernel
example : tokenize "https://example.com/emmyrc.json#/$defs/Shared.?" =
    [.name "https://example.com/emmyrc.json#/$defs/Shared", .other '.', .marks "?"] := by
  decide +kernel
example : tokenize "settings set 'a\\'b' '" =
    [.name "settings", .keyword "set" false, .literal "'a\\'b'", .other '\x27'] := by
  decide +kernel
example : normalize "a:null ?|.5e3" = "a: null? | .5e3" := by decide +kernel

end Token

end SchemaDoc
