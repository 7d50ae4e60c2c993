import SchemaDoc.Signature.Token

/-!
# Signatures in color

On a terminal the tokens of a signature are colored by their kind: literals,
numbers, keywords and names.  Without color, the signature is shown as
`Token.normalize` has it.
-/

namespace SchemaDoc.Token

/-- The sequence that begins a terminal style. -/
def styleOn (code : String) : List Char := '\x1b' :: '[' :: (code.toList ++ ['m'])

/-- The sequence that ends every style. -/
def styleOff : List Char := styleOn "0"

/-- A text with a stretch put in after each end of a style, after some characters that
are taken already. -/
def restyleAfter (style : List Char) : Nat → List Char → List Char
  | taken + 1, c :: rest => c :: (if taken = 0 then style else []) ++ restyleAfter style taken rest
  | 0, c :: rest =>
    if styleOff.isPrefixOf (c :: rest) then c :: restyleAfter style (styleOff.length - 1) rest
    else c :: restyleAfter style 0 rest
  | _, [] => []
termination_by structural _ text => text

/-- A text in a style.  Where the text ends a style itself, its style begins again. -/
def paint (code : String) (text : List Char) : List Char :=
  styleOn code ++ restyleAfter (styleOn code) 0 text ++ styleOff

/-- The style of a token: green, yellow and blue, and bold cyan for a name. -/
def style? : Token → Option String
  | .literal _ => some "32"
  | .number _ => some "33"
  | .keyword _ _ => some "34"
  | .name _ => some "1;36"
  | _ => none

/-- A token as a terminal shows it. -/
def shown (color : Bool) (token : Token) : List Char :=
  let text := token.display.toList
  match if color then token.style? else none with
  | some code => paint code text
  | none => text

/-- A signature as a terminal shows it. -/
def highlight (color : Bool) (signature : String) : String :=
  String.ofList (Text.trim ((tokenize signature).flatMap (shown color)))

/-- Without color, a signature is shown with the blanks that its tokens ask for. -/
theorem highlight_false (signature : String) : highlight false signature = normalize signature := by
  have h : shown false = fun token => token.display.toList := by
    funext token
    simp [shown]
  rw [highlight, normalize, h]

/-! ## Tests -/

example : highlight true "A|null" = "\x1b[1;36mA\x1b[0m | \x1b[34mnull\x1b[0m" := by
  decide +kernel
example : String.ofList (paint "32" "a\x1b[0mb".toList) = "\x1b[32ma\x1b[0m\x1b[32mb\x1b[0m" := by
  decide +kernel

end SchemaDoc.Token
