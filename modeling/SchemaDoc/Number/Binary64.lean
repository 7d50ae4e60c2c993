/-!
# Double precision numbers

A finite double is a sign and a product `m · 2^e` of a significand below `2^53`
and a power of two, with `e` at least `-1074`.  Every finite double has one such
form with `m` at least `2^52` or `e` equal to `-1074`, and only that form is ever
built here, so equal doubles are equal values of the type, zero apart: it has two
signs.

Arithmetic is exact: a product or quotient is a fraction of natural numbers, and
`ofQuotient?` rounds a fraction to the nearest double, a tie to the even
significand.  There is no infinity; a value that rounds beyond the largest double
has no result.
-/

namespace SchemaDoc

/-- A finite double: a sign and `significand · 2^exponent`. -/
structure Binary64 where
  /-- Whether the sign is minus. -/
  negative : Bool
  /-- The significand, below `2^53`. -/
  significand : Nat
  /-- The exponent of two, from `-1074` to `971`. -/
  exponent : Int
deriving DecidableEq, Repr, Inhabited

namespace Binary64

/-- Zero, with a sign. -/
def zero (negative : Bool) : Binary64 := ⟨negative, 0, -1074⟩

/-- Whether the number is zero, of either sign. -/
def isZero (x : Binary64) : Bool := x.significand == 0

/-- Equality of values: the two zeros are equal. -/
def same (x y : Binary64) : Bool := (x.isZero && y.isZero) || x == y

/-! ## Rounding a fraction -/

/-- The natural number nearest to `num / den`, a tie to the even one. -/
def roundQuotient (num den : Nat) : Nat :=
  let floor := num / den
  let rest := 2 * (num % den)
  if rest < den || (rest == den && floor % 2 == 0) then floor else floor + 1

/-- A fraction divided by a power of two. -/
def shiftDown (num den : Nat) : Int → Nat × Nat
  | .ofNat k => (num, den <<< k)
  | .negSucc k => (num <<< (k + 1), den)

/-- The exponent at which the fraction `num / den` has 53 binary digits, or the
smallest exponent there is. -/
def exponentOf (num den : Nat) : Int :=
  let guess := (num.log2 : Int) - den.log2 - 53
  let (n, d) := shiftDown num den guess
  max (if Nat.pow 2 53 ≤ n / d then guess + 1 else guess) (-1074)

/-- The double nearest to `± num / den`, unless it lies beyond the largest. -/
def ofQuotient? (negative : Bool) (num den : Nat) : Option Binary64 :=
  if num = 0 then some (zero negative)
  else
    let exponent := exponentOf num den
    let (n, d) := shiftDown num den exponent
    let rounded := roundQuotient n d
    let (m, e) := if rounded = Nat.pow 2 53 then (Nat.pow 2 52, exponent + 1) else (rounded, exponent)
    if e ≤ 971 then some ⟨negative, m, e⟩ else none

/-- The double nearest to a natural number. -/
def ofNat? (n : Nat) : Option Binary64 := ofQuotient? false n 1

/-- The magnitude as a fraction. -/
def quotient (x : Binary64) : Nat × Nat := shiftDown x.significand 1 (-x.exponent)

/-- The product, rounded. -/
def mul? (x y : Binary64) : Option Binary64 :=
  let (a, b) := x.quotient
  let (c, d) := y.quotient
  ofQuotient? (x.negative != y.negative) (a * c) (b * d)

/-- The quotient by a number that is not zero, rounded. -/
def div? (x y : Binary64) : Option Binary64 :=
  let (a, b) := x.quotient
  let (c, d) := y.quotient
  ofQuotient? (x.negative != y.negative) (a * d) (b * c)

/-- The number with the given sign. -/
def withSign (negative : Bool) (x : Binary64) : Binary64 := { x with negative := negative }

theorem same_refl (x : Binary64) : same x x = true := by simp [same]

theorem same_comm (x y : Binary64) : same x y = same y x := by
  simp [same, Bool.and_comm, BEq.comm]

theorem same_iff (x y : Binary64) : same x y = true ↔ x.isZero ∧ y.isZero ∨ x = y := by
  simp [same]

/-! ## Tests -/

example : ofQuotient? false 1 1 = some ⟨false, 2 ^ 52, -52⟩ := by decide +kernel
/-- A third, and a tie that goes to the even neighbour. -/
example : ofQuotient? true 1 3 = some ⟨true, 6004799503160661, -54⟩ := by decide +kernel
example : ofNat? (2 ^ 53 + 1) = some ⟨false, 2 ^ 52, 1⟩ := by decide +kernel
/-- The largest double, and the first integer that rounds beyond it. -/
example : ofNat? ((2 ^ 53 - 1) * 2 ^ 971) = some ⟨false, 2 ^ 53 - 1, 971⟩ := by decide +kernel
example : ofNat? (2 ^ 1024 - 2 ^ 970) = none := by decide +kernel
/-- The smallest double, and half of it, which is a tie and goes to zero. -/
example : ofQuotient? false 1 (2 ^ 1074) = some ⟨false, 1, -1074⟩ := by decide +kernel
example : ofQuotient? false 1 (2 ^ 1075) = some (zero false) := by decide +kernel

end Binary64

end SchemaDoc
