import SchemaDoc.Text.Hexadecimal

/-!
# Percent-encoding

A character that may not stand in some text is written as its UTF-8 bytes, each
as a percent sign and two upper-case hexadecimal digits.  Which characters may
stand as they are is a parameter.

`percentEncode_eq_self` says that a text of characters that may stand is unchanged.
-/

namespace SchemaDoc.Text

/-- The UTF-8 bytes of a character. -/
def utf8 (c : Char) : List Nat :=
  let n := c.toNat
  if n < 0x80 then [n]
  else if n < 0x800 then [0xC0 + n / 0x40, 0x80 + n % 0x40]
  else if n < 0x10000 then [0xE0 + n / 0x1000, 0x80 + n / 0x40 % 0x40, 0x80 + n % 0x40]
  else
    [0xF0 + n / 0x40000, 0x80 + n / 0x1000 % 0x40, 0x80 + n / 0x40 % 0x40, 0x80 + n % 0x40]

/-- A byte as a percent sign and two digits. -/
def percentByte (byte : Nat) : List Char := ['%', upperHex (byte / 16), upperHex (byte % 16)]

/-- A character as it is if it may stand, and its encoded bytes otherwise. -/
def percentEncodeChar (keep : Char → Bool) (c : Char) : List Char :=
  if keep c then [c] else (utf8 c).flatMap percentByte

/-- A text with the characters that may not stand encoded. -/
def percentEncode (keep : Char → Bool) (cs : List Char) : List Char :=
  cs.flatMap (percentEncodeChar keep)

/-- The bytes of a text with each percent sign and its two digits read as a byte.
A percent sign without two digits stands for itself. -/
def percentBytes : List Char → List Nat
  | '%' :: a :: b :: rest =>
    match hexDigit? a, hexDigit? b with
    | some high, some low => (16 * high + low) :: percentBytes rest
    | _, _ => utf8 '%' ++ percentBytes (a :: b :: rest)
  | c :: rest => utf8 c ++ percentBytes rest
  | [] => []

/-- The text that bytes are in UTF-8. -/
def ofUtf8? (bytes : List Nat) : Option String :=
  String.fromUTF8? ⟨(bytes.map UInt8.ofNat).toArray⟩

theorem percentEncode_eq_self {keep : Char → Bool} {cs : List Char}
    (h : ∀ c ∈ cs, keep c = true) : percentEncode keep cs = cs := by
  induction cs with
  | nil => rfl
  | cons c rest ih =>
    simp only [percentEncode, List.flatMap_cons] at ih ⊢
    rw [ih fun d hd => h d (List.mem_cons_of_mem _ hd), percentEncodeChar, if_pos (h c (by simp))]
    rfl

/-! ## Tests -/

example : String.ofList (percentEncode Char.isAlphanum "aé🙂".toList) = "a%C3%A9%F0%9F%99%82" := by
  decide +kernel
example : percentBytes "%41%zz%".toList = [0x41, 0x25, 0x7A, 0x7A, 0x25] := by decide

end SchemaDoc.Text
