import SchemaDoc.Number.Binary64

/-!
# The shortest decimal of a double

A decimal *reads back* as a double if it lies in the interval of numbers that
round to that double.  The ends of the interval are half-way to the neighbours,
and belong to it when the significand is even.  `shortest` looks for the fewest
digits that read back: for one digit, two digits and so on it tests the two
neighbours of the value on the decimal grid of that many digits.  If any number
of the grid lies in the interval then so does one of these two, since the value
lies between them.  When both read back the nearer wins, and the even one of two
that are as near.  Seventeen digits always suffice.
-/

namespace SchemaDoc

/-- A positive decimal number, `digits · 10^exponent`. -/
structure Decimal where
  /-- The digits, as a natural number. -/
  digits : Nat
  /-- The exponent of ten of the last digit. -/
  exponent : Int
deriving DecidableEq, Repr, Inhabited

namespace Decimal

/-- The number of decimal digits of a natural number. -/
def width (n : Nat) : Nat := (Nat.toDigits 10 n).length

/-- The exponent of ten of the leading digit of the fraction `num / den`. -/
def leadingExponent (num den : Nat) : Int :=
  if den ≤ num then (width (num / den) : Int) - 1
  else
    let places := width (den / num) - 1
    if den ≤ num * Nat.pow 10 places then -places else -(places + 1)

/-- A grid of decimals beside a double: `c · 10^place` compares with a quarter
multiple `k · 2^(e-2)` as `c · unit` with `k · scale`. -/
structure Grid where
  /-- The weight of a step of the grid. -/
  unit : Nat
  /-- The weight of a quarter of the last place of the double. -/
  scale : Nat

/-- The grid of a decimal place beside a binary exponent. -/
def Grid.at (place exponent : Int) : Grid :=
  { unit := Nat.pow 10 place.toNat <<< (2 - exponent).toNat
    scale := Nat.pow 10 (-place).toNat <<< (exponent - 2).toNat }

/-- The ends of the interval that rounds to a double, in quarters of its last
place.  Below a power of two the neighbour is only half as far. -/
def readingInterval (x : Binary64) : Nat × Nat :=
  let quarters := 4 * x.significand
  if x.significand = Nat.pow 2 52 ∧ -1074 < x.exponent then (quarters - 1, quarters + 2)
  else (quarters - 2, quarters + 2)

/-- Whether the grid point `c` reads back as the double. -/
def readsBack (x : Binary64) (grid : Grid) (c : Nat) : Bool :=
  let (low, high) := readingInterval x
  let point := c * grid.unit
  if x.significand % 2 = 0 then low * grid.scale ≤ point ∧ point ≤ high * grid.scale
  else low * grid.scale < point ∧ point < high * grid.scale

/-- The neighbour of the double on the grid that reads back, the nearer if both do. -/
def onGrid? (x : Binary64) (place : Int) : Option Decimal :=
  let grid := Grid.at place x.exponent
  let value := 4 * x.significand * grid.scale
  let below := value / grid.unit
  let fromBelow := value - below * grid.unit
  let toAbove := (below + 1) * grid.unit - value
  match readsBack x grid below, readsBack x grid (below + 1) with
  | true, true =>
    if fromBelow < toAbove ∨ fromBelow = toAbove ∧ below % 2 = 0 then some ⟨below, place⟩
    else some ⟨below + 1, place⟩
  | true, false => some ⟨below, place⟩
  | false, true => some ⟨below + 1, place⟩
  | false, false => none

/-- The decimal of fewest digits that reads back as a double other than zero. -/
def shortest (x : Binary64) : Decimal :=
  let (num, den) := x.quotient
  let leading := leadingExponent num den
  ((List.range 17).findSome? fun (n : Nat) => onGrid? x (leading - n)).getD ⟨0, 0⟩

/-! ## Writing a decimal -/

/-- How a decimal is written: positionally while the exponent of its leading
digit lies in a range, with an exponent otherwise. -/
structure Layout where
  /-- The least leading exponent that is written positionally. -/
  low : Int
  /-- The greatest leading exponent that is written positionally. -/
  high : Int
  /-- The fraction of a positional number that has none. -/
  wholeSuffix : String
  /-- The mark before an exponent that is not negative. -/
  upMark : String
  /-- The mark before the digits of a negative exponent. -/
  downMark : String

/-- The significant digits, without zeros at the end. -/
def significant (d : Decimal) : List Char :=
  ((Nat.toDigits 10 d.digits).reverse.dropWhile (· == '0')).reverse

/-- The exponent of ten of the leading digit. -/
def leading (d : Decimal) : Int := d.exponent + width d.digits - 1

/-- The text of a decimal in a layout. -/
def Layout.write (layout : Layout) (d : Decimal) : String :=
  let digits := d.significant
  let count := digits.length
  let lead := d.leading
  if layout.low ≤ lead ∧ lead ≤ layout.high then
    if lead < 0 then
      "0." ++ String.ofList (List.replicate (-lead - 1).toNat '0' ++ digits)
    else
      let whole := lead.toNat + 1
      if count ≤ whole then
        String.ofList (digits ++ List.replicate (whole - count) '0') ++ layout.wholeSuffix
      else String.ofList (digits.take whole) ++ "." ++ String.ofList (digits.drop whole)
  else
    let fraction := if count ≤ 1 then "" else "." ++ String.ofList (digits.drop 1)
    let mark := if 0 ≤ lead then layout.upMark else layout.downMark
    String.ofList (digits.take 1) ++ fraction ++ mark ++ toString lead.natAbs

/-! ## Tests -/

section Tests

/-- The shortest decimal of a fraction. -/
def ofFraction (num den : Nat) : Option Decimal :=
  (Binary64.ofQuotient? false num den).map shortest

example : ofFraction 1 10 = some ⟨1, -1⟩ := by decide +kernel
example : ofFraction 1 3 = some ⟨3333333333333333, -16⟩ := by decide +kernel
/-- The smallest double: three other single digits read back, five is nearest. -/
example : ofFraction 1 (2 ^ 1074) = some ⟨5, -324⟩ := by decide +kernel
example : ofFraction ((2 ^ 53 - 1) * 2 ^ 971) 1 = some ⟨17976931348623157, 292⟩ := by
  decide +kernel
/-- A tie of two decimals that both read back goes to the even digit. -/
example : ofFraction (2 ^ 52 + 1) 4 = some ⟨11258999068426242, -1⟩ := by decide +kernel

end Tests

end Decimal

end SchemaDoc
