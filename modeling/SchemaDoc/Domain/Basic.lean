import SchemaDoc.Domain.Direction
import SchemaDoc.Domain.Joining
import SchemaDoc.Domain.Mapping
import SchemaDoc.Domain.Punycode

/-!
# Domains

A domain is a text of labels with dots between them.  A label that is not in ASCII is
written in ASCII as `xn--` and its Punycode.  `ascii?` gives the domain that a text
stands for in ASCII, or nothing if a label is not well formed.  A label may be empty, and
any character of ASCII may stand in it.
-/

namespace SchemaDoc.Domain

open Text (splitOn)

/-- What a label that is written in Punycode begins with. -/
def punycodeMark : List Char := "xn--".toList

/-- Whether a text begins as a label in Punycode. -/
def isPunycode (label : List Char) : Bool := punycodeMark.isPrefixOf label

/-- Whether a label may stand in a domain: it does not begin with a mark, and its joiners
stand where they may. -/
def isWellFormed (label : List Char) : Bool := !label.head?.any Text.isMark && joins label

/-- The label that some Punycode stands for.  It must be one that needs Punycode. -/
def fromPunycode? (written : List Char) : Option (List Char) := do
  let label ←
    if written.all Punycode.isAscii && written.length ≤ 2000 then Punycode.decode? written
    else none
  if !label.all Punycode.isAscii && label.all isPlain && Text.compose label == label &&
      isWellFormed label then
    some label
  else none

/-- A label in ASCII. -/
def toPunycode? (label : List Char) : Option (List Char) :=
  if label.all Punycode.isAscii then some label
  else if 1000 < label.length then none
  else some (punycodeMark ++ Punycode.encode label)

/-- A label and how it is written in ASCII. -/
def label? (label : List Char) : Option (List Char × List Char) :=
  if isPunycode label then
    (fromPunycode? (label.drop punycodeMark.length)).map fun meant => (meant, label)
  else if isWellFormed label then (toPunycode? label).map fun written => (label, written)
  else none

/-- Whether a text is a domain that stands for itself but for capital letters. -/
def isSimple (text : List Char) : Bool :=
  text.all Punycode.isAscii && !(splitOn '.' (text.map Char.toLower)).any isPunycode

/-- The domain in ASCII that a text stands for. -/
def ascii? (text : List Char) : Option (List Char) := do
  if isSimple text then some (text.map Char.toLower)
  else
    let labels ← (splitOn '.' (← map? text)).mapM label?
    if keepDirections (labels.map Prod.fst) then
      some (['.'].intercalate (labels.map Prod.snd))
    else none

/-! ## Tests -/

example : ascii? "A_b..C".toList = some "a_b..c".toList := by decide +kernel
example : toPunycode? "bücher".toList = some "xn--bcher-kva".toList := by decide +kernel

end SchemaDoc.Domain
