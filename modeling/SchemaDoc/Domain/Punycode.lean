import SchemaDoc.Text.Split

/-!
# Punycode

A text is written in ASCII as its ASCII characters and a number for each other
character.  The others are put into the text one after another, from the least code point
to the greatest and then from the start of the text to its end.  A number is how many
steps lie between two of them, where a step goes to the next place in the text, or from
the end of the text to the start and to the next code point.

A number is written in digits of base 36, the least significant first.  How many values
end a number depends on its digit's place and on a *bias*, which follows the size of the
numbers before.

`digit?_digitChar` says that a digit is read as it is written.
-/

namespace SchemaDoc.Domain.Punycode

open Text (cutLast?)

/-! ## Digits -/

/-- The character of a digit. -/
def digitChar (digit : Nat) : Char :=
  Char.ofNat (if digit < 26 then 0x61 + digit else 0x30 + (digit - 26))

/-- The digit that a character is. -/
def digit? (c : Char) : Option Nat :=
  if c.isLower then some (c.toNat - 0x61)
  else if c.isDigit then some (c.toNat - 0x30 + 26)
  else none

theorem digit?_digitChar (digit : Nat) (h : digit < 36) : digit? (digitChar digit) = some digit := by
  have all : ∀ n < 36, digit? (digitChar n) = some n := by decide
  exact all digit h

/-- The least digit that does not end a number, at some place.  Places count from one. -/
def threshold (bias place : Nat) : Nat := min 26 (max 1 (36 * place - bias))

theorem threshold_pos (bias place : Nat) : 1 ≤ threshold bias place := by unfold threshold; omega

/-- The digits of a number from some place on. -/
def digitsFrom (bias place number : Nat) : List Char :=
  let least := threshold bias place
  if number < least then [digitChar number]
  else
    digitChar (least + (number - least) % (36 - least)) ::
      digitsFrom bias (place + 1) ((number - least) / (36 - least))
termination_by number
decreasing_by
  have positive := threshold_pos bias place
  exact Nat.lt_of_le_of_lt (Nat.div_le_self _ _) (by omega)

/-! ## The bias -/

/-- The bias that some number, as large as the ones to come may be, leads to after some
digits. -/
def biasFrom (places number : Nat) : Nat :=
  if 455 < number then biasFrom (places + 1) (number / 35)
  else 36 * places + 36 * number / (number + 38)
termination_by number
decreasing_by omega

/-- The bias after a number that made a text of some size.  The first number is likely to
be much greater than the next. -/
def biasAfter (number size : Nat) (isFirst : Bool) : Nat :=
  let scaled := number / (if isFirst then 700 else 2)
  biasFrom 0 (scaled + scaled / size)

/-! ## Insertions -/

/-- A text that has some of its characters. -/
structure Progress where
  /-- How many characters it has. -/
  size : Nat
  /-- The code point that was put in last. -/
  code : Nat := 0x80
  /-- The place after it. -/
  place : Nat := 0
  bias : Nat := 72
deriving DecidableEq, Repr

/-- The steps to a code point at a place. -/
def Progress.stepsTo (progress : Progress) (code place : Nat) : Nat :=
  (code - progress.code) * (progress.size + 1) + place - progress.place

/-- A text with one more character some steps ahead. -/
def Progress.next (progress : Progress) (steps : Nat) : Progress :=
  let size := progress.size + 1
  let ahead := progress.place + steps
  { size
    code := progress.code + ahead / size
    place := ahead % size + 1
    bias := biasAfter steps size (progress.place == 0) }

/-! ## Encoding -/

/-- Whether a character is in ASCII. -/
def isAscii (c : Char) : Bool := c.toNat < 0x80

/-- The characters of a text that are not in ASCII, each with its place among those that
are there when it is put in.  The characters before the text are given too. -/
def insertionsAfter (before : List Char) : List Char → List (Char × Nat)
  | [] => []
  | c :: rest =>
    let later := insertionsAfter (c :: before) rest
    if isAscii c then later else (c, before.countP (· ≤ c)) :: later

/-- The numbers of some insertions. -/
def encodeFrom (progress : Progress) : List (Char × Nat) → List Char
  | [] => []
  | (c, place) :: rest =>
    let steps := progress.stepsTo c.toNat place
    digitsFrom progress.bias 1 steps ++ encodeFrom (progress.next steps) rest

/-- A text in ASCII. -/
def encode (text : List Char) : List Char :=
  let ascii := text.filter isAscii
  let insertions := (insertionsAfter [] text).mergeSort fun a b => a.1 ≤ b.1
  (if ascii.isEmpty then [] else ascii ++ ['-']) ++ encodeFrom { size := ascii.length } insertions

/-! ## Decoding -/

/-- The start of a number: the value of its digits, the place of the next one and what
that counts. -/
structure NumberStart where
  value : Nat := 0
  place : Nat := 1
  weight : Nat := 1
deriving DecidableEq, Repr

/-- The text that some digits lead to.  The last number must be complete, and every code
point must be that of a character. -/
def decodeFrom? (progress : Progress) (text : List Char) (number : NumberStart) :
    List Char → Option (List Char)
  | [] => if number = {} then some text else none
  | c :: rest => do
    let digit ← digit? c
    let least := threshold progress.bias number.place
    let value := number.value + digit * number.weight
    if least ≤ digit then
      decodeFrom? progress text ⟨value, number.place + 1, number.weight * (36 - least)⟩ rest
    else
      let next := progress.next value
      if next.code.isValidChar then
        decodeFrom? next (text.insertIdx (next.place - 1) (Char.ofNat next.code)) {} rest
      else none

/-- The text that is written in some characters of ASCII. -/
def decode? (written : List Char) : Option (List Char) :=
  match cutLast? '-' written with
  | some ([], _) => none
  | some (ascii, digits) => decodeFrom? { size := ascii.length } ascii {} digits
  | none => decodeFrom? { size := 0 } [] {} written

/-! ## Tests -/

example : encode "bücher".toList = "bcher-kva".toList := by decide +kernel
example : encode "例え".toList = "r8jz45g".toList := by cbv
example : decode? "bcher-kva".toList = some "bücher".toList := by decide +kernel
example : decode? "r8jz45g".toList = some "例え".toList := by decide +kernel
example : decode? "-kva".toList = none ∧ decode? "a-z".toList = none := by decide +kernel
example : decode? "99999999".toList = none := by decide +kernel

end SchemaDoc.Domain.Punycode
