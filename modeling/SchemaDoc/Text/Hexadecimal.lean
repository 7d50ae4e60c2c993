/-!
# Hexadecimal digits

Reading accepts either case; writing comes in both.
-/

namespace SchemaDoc.Text

/-- The value of an ASCII decimal digit. -/
def digitValue (c : Char) : Nat := c.toNat - '0'.toNat

/-- The value of a hexadecimal digit of either case. -/
def hexDigit? (c : Char) : Option Nat :=
  if c.isDigit then some (digitValue c)
  else if 'a' ≤ c ∧ c ≤ 'f' then some (c.toNat - 'a'.toNat + 10)
  else if 'A' ≤ c ∧ c ≤ 'F' then some (c.toNat - 'A'.toNat + 10)
  else none

/-- The digit of a value below 16, in lower case. -/
def lowerHex (n : Nat) : Char :=
  if n < 10 then Char.ofNat ('0'.toNat + n) else Char.ofNat ('a'.toNat + (n - 10))

/-- The digit of a value below 16, in upper case. -/
def upperHex (n : Nat) : Char :=
  if n < 10 then Char.ofNat ('0'.toNat + n) else Char.ofNat ('A'.toNat + (n - 10))

/-- Reading gives back the value that was written, in either case. -/
theorem hexDigit?_hex {n : Nat} (h : n < 16) :
    hexDigit? (lowerHex n) = some n ∧ hexDigit? (upperHex n) = some n := by
  have all : ∀ k : Fin 16, hexDigit? (lowerHex k) = some k.val ∧
      hexDigit? (upperHex k) = some k.val := by decide
  exact all ⟨n, h⟩

end SchemaDoc.Text
