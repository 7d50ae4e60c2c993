import SchemaDoc.Domain.Basic
import SchemaDoc.Text.Percent

/-!
# Hosts

The host of a URL with a special scheme is an IPv6 address in brackets, an IPv4
address in any of its spellings, or a domain.  An address is written in its one
canonical form, a domain in ASCII.  Any other scheme takes an IPv6 address or a text that
is only percent-encoded.

`Host.parse?` reads a host and gives the text of its canonical form, or nothing if
the text is no host.
-/

namespace SchemaDoc.Url.Host

open Text (splitOn splitWhere cut? hexDigit? digitValue lowerHex)

/-! ## IPv4 -/

/-- The value of digits, most significant first. -/
def ofDigits (radix : Nat) (digits : List Nat) : Nat :=
  digits.foldl (fun value digit => radix * value + digit) 0

/-- The value of a text of digits in a radix; nothing if one is no digit. -/
def readRadix? (radix : Nat) (text : List Char) : Option Nat := do
  let digits ← text.mapM fun c => do
    let digit ← hexDigit? c
    if digit < radix then some digit else none
  some (ofDigits radix digits)

/-- A part of an IPv4 address: hexadecimal after `0x`, octal after a zero, decimal
otherwise.  After the mark of the radix there may be no digit. -/
def ipv4Part? : List Char → Option Nat
  | [] => none
  | '0' :: 'x' :: rest => readRadix? 16 rest
  | '0' :: 'X' :: rest => readRadix? 16 rest
  | ['0'] => some 0
  | '0' :: rest => readRadix? 8 rest
  | digits => readRadix? 10 digits

/-- The parts between dots, without an empty one at the end. -/
def dottedParts (text : List Char) : List (List Char) :=
  let parts := splitOn '.' text
  if parts.length ≠ 1 ∧ parts.getLast? = some [] then parts.dropLast else parts

/-- Whether the last part is a number, so that the host must be an IPv4 address. -/
def endsInNumber (text : List Char) : Bool :=
  match (dottedParts text).getLast? with
  | some last => (!last.isEmpty && last.all Char.isDigit) || (ipv4Part? last).isSome
  | none => false

/-- The four bytes of an address between dots. -/
def renderIpv4 (address : Nat) : List Char :=
  let byte (shift : Nat) : List Char := (toString ((address >>> shift) % 256)).toList
  byte 24 ++ '.' :: (byte 16 ++ '.' :: (byte 8 ++ '.' :: byte 0))

/-- An IPv4 address of up to four parts.  The last part fills the bytes that are
left over by the others. -/
def ipv4? (text : List Char) : Option (List Char) := do
  let parts := dottedParts text
  if 4 < parts.length then none
  else
    let numbers ← parts.mapM ipv4Part?
    let last ← numbers.getLast?
    let others := numbers.dropLast
    if others.all (· ≤ 255) && last < Nat.pow 256 (4 - others.length) then
      some (renderIpv4 (ofDigits 256 others * Nat.pow 256 (4 - others.length) + last))
    else none

/-! ## IPv6 -/

/-- A byte of an IPv4 address at the end of an IPv6 address. -/
def ipv6Byte? (text : List Char) : Option Nat := do
  let value ← if text.all Char.isDigit then readRadix? 10 text else none
  if text.isEmpty || (1 < text.length && text.head? = some '0') || 255 < value then none
  else some value

/-- A group of four hexadecimal digits, or fewer. -/
def ipv6Group? (text : List Char) : Option Nat :=
  if text.isEmpty || 4 < text.length then none else readRadix? 16 text

/-- Groups between colons.  The last may be an IPv4 address, which counts for two. -/
def ipv6Groups? (dotted : Bool) : List (List Char) → Option (List Nat)
  | [] => some []
  | [last] =>
    if dotted && last.contains '.' then do
      match ← (splitOn '.' last).mapM ipv6Byte? with
      | [a, b, c, d] => some [a * 256 + b, c * 256 + d]
      | _ => none
    else (ipv6Group? last).map fun group => [group]
  | text :: rest => do
    let group ← ipv6Group? text
    let groups ← ipv6Groups? dotted rest
    some (group :: groups)

/-- The groups of one side of the double colon. -/
def ipv6Side? (dotted : Bool) (text : List Char) : Option (List Nat) :=
  if text.isEmpty then some [] else ipv6Groups? dotted (splitOn ':' text)

/-- What stands before and after the first double colon. -/
def cutDoubleColon? : List Char → Option (List Char × List Char)
  | ':' :: ':' :: rest => some ([], rest)
  | c :: rest => (cutDoubleColon? rest).map fun (before, after) => (c :: before, after)
  | [] => none

/-- The eight groups of an address. -/
def readIpv6? (text : List Char) : Option (List Nat) :=
  match cutDoubleColon? text with
  | some (before, after) => do
    let left ← ipv6Side? false before
    let right ← ipv6Side? true after
    let given := left.length + right.length
    if given ≤ 7 then some (left ++ List.replicate (8 - given) 0 ++ right) else none
  | none => do
    let groups ← ipv6Groups? true (splitOn ':' text)
    if groups.length = 8 then some groups else none

/-- The number of zeros at the start of some groups. -/
def leadingZeros (groups : List Nat) : Nat := (groups.takeWhile (· == 0)).length

/-- The start and the length of the longest run of zeros, the first of several. -/
def longestZeros (start : Nat) : List Nat → Nat × Nat
  | [] => (start, 0)
  | group :: rest =>
    let here := leadingZeros (group :: rest)
    let later := longestZeros (start + 1) rest
    if later.2 ≤ here then (start, here) else later

/-- A group without zeros in front. -/
def renderGroup (group : Nat) : List Char := Nat.toDigits 16 group

/-- An address, with the longest run of two or more zeros left out. -/
def renderIpv6 (groups : List Nat) : List Char :=
  let write (groups : List Nat) : List Char := [':'].intercalate (groups.map renderGroup)
  let (start, length) := longestZeros 0 groups
  if length ≤ 1 then write groups
  else write (groups.take start) ++ ':' :: ':' :: write (groups.drop (start + length))

/-! ## Hosts -/

/-- What no host may hold. -/
def isForbidden (c : Char) : Bool := "\x00\t\n\r #/:<>?@[\\]^|".toList.contains c

/-- What no domain may hold. -/
def isForbiddenInDomain (c : Char) : Bool :=
  isForbidden c || c.toNat < 0x20 || c == '%' || c == '\x7f'

/-- A domain in ASCII, or the IPv4 address that it is. -/
def domain? (text : List Char) : Option (List Char) := do
  let decoded ← Text.ofUtf8? (Text.percentBytes text)
  let domain ← Domain.ascii? decoded.toList
  if domain.isEmpty || domain.any isForbiddenInDomain then none
  else if endsInNumber domain then ipv4? domain
  else some domain

/-- A host in its canonical form. -/
def parse? (special : Bool) (text : List Char) : Option (List Char) :=
  match text with
  | '[' :: rest =>
    if rest.getLast? = some ']' then
      (readIpv6? rest.dropLast).map fun groups => '[' :: (renderIpv6 groups ++ [']'])
    else none
  | text =>
    if special then domain? text
    else if text.any isForbidden then none
    else some (Text.percentEncode (fun c => 0x20 ≤ c.toNat && c.toNat ≤ 0x7E) text)

/-! ## Tests -/

section Tests

/-- The canonical form of the host of a special scheme. -/
def canonical (text : String) : Option String := (parse? true text.toList).map String.ofList

example : canonical "EXAMPLE.com" = some "example.com" := by decide +kernel
example : canonical "%41.b" = some "a.b" := by decide +kernel
example : canonical "0x7f.1" = some "127.0.0.1" := by decide +kernel
example : canonical "1.2.3.4." = some "1.2.3.4" := by decide +kernel
example : canonical "1.2.3.4.5" = none := by decide +kernel
example : canonical "256.1" = none := by decide +kernel
example : canonical "1.256" = some "1.0.1.0" := by decide +kernel
example : canonical "a.09" = none := by decide +kernel
example : canonical "a b" = none := by decide +kernel
example : canonical "[1:0:0:2::]" = some "[1:0:0:2::]" := by decide +kernel
example : canonical "[::ffff:1.2.3.4]" = some "[::ffff:102:304]" := by decide +kernel
example : canonical "[1:2:3:4:5:6:7::8]" = none := by decide +kernel
example : parse? false "A%b".toList = some "A%b".toList := by decide +kernel

end Tests

end SchemaDoc.Url.Host
