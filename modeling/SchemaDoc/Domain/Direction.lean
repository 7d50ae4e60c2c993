import SchemaDoc.Text.Mark

/-!
# Directions of writing

A domain with a letter that is written from right to left has labels that can be told
apart on a line.  Each label has one direction, that of the letter it begins with.  A
label from left to right has no letter and no Arabic number of the other direction, and
it ends in a letter or a number.  A label from right to left has no letter of the other
direction and not both kinds of numbers, and it ends in a letter or a number.  Marks at
the end are passed over.
-/

namespace SchemaDoc.Domain

open Text (Runs)

/-- How a character is placed on a line. -/
inductive Direction where
  /-- A letter that is written from left to right. -/
  | leftToRight
  /-- A letter that is written from right to left. -/
  | rightToLeft
  | arabicNumber
  | europeanNumber
  /-- What takes the direction of the text around it. -/
  | neutral
  /-- A blank or the end of a paragraph. -/
  | separator
  /-- A mark on the letter before it. -/
  | mark
deriving DecidableEq, Repr

/-! ## Tables -/

/-- The letters from right to left. -/
def rightToLeftRuns : Runs := Runs.read
  ["5BE 5C0 5C3 5C6 5D0-5F4 608 60B 60D 61B-64A 66D-66F 671-6D5 6E5-6E6 6EE-6EF 6FA-710 712-72F",
   "74D-7A5 7B1-7EA 7F4-7F5 7FA 7FE-815 81A 824 828 830-858 85E-88F 8A0-8C9 FBB2-FBC2 FE73",
   "10800-1091B 10920-10A00 10A10-10A35 10A40-10AE4 10AEB-10B35 10B40-10D23 10D40-10D4F",
   "10D6F-10D8F 10E80-10EA9 10EAD-10EC7 10F00-10F45 10F51-10F81 10F86-10FF6 1E800-1E8CF",
   "1E922-1E943 1E94B-1ED3D"]

/-- The Arabic numbers. -/
def arabicNumberRuns : Runs := Runs.read
  ["660-669 66B-66C 10D30-10D39 10E60-10E7E"]

/-- The European numbers. -/
def europeanNumberRuns : Runs := Runs.read
  ["30-39 6F0-6F9 102E1-102FB"]

/-- The neutral characters. -/
def neutralRuns : Runs := Runs.read
  ["0-8 E-1B 21-2F 3A-60 7B-D7 F7 2B9-2BA 2C2-2CF 2D2-2ED 2EF-2FF 375 3F6 58A-58F 606-607",
   "609-60A 60C 60E-60F 66A 6DE 6E9 7F6-7F9 9F2-9F3 9FB AF1 BF3-BFA C78-C7E E3F F3A-F3D",
   "1390-1399 1400 169B-169C 17DB 17F0-180A 1940-1945 19DE-19FF 200C-20C1 2104-214D 218A-2335",
   "237B-2394 2396-26AB 26AD-27FF 2900-2BFF 2CE5-2CEA 2CF9-2CFF 2E00-3004 3008-3020 3030 3037",
   "303D-303F 30A0 30FB 31C0-31E5 4DC0-4DFF A490-A4C6 A60D-A60F A673 A67E-A67F A700-A721 A788",
   "A828-A82B A838-A839 A874-A877 AB6A-AB6B FBC3-FDFF FE45-FE46 10101 10140-1018C 10190-101A0",
   "1091F 10B39-10B3F 10D6E 10ED0-10ED8 11052-11065 11660-1166C 11FD5-11FF1 16FE2 1CC00-1CEF0",
   "1D1E9-1D241 1D245 1D300-1D356 1E2FF 1EEF0-1F12F 1F16D-1F16F 1F1AD 1F260-1FBFA"]

/-- The separators. -/
def separatorRuns : Runs := Runs.read
  ["9-D 1C-20"]

/-- The nonspacing marks that are placed as letters. -/
def placedMarks : Runs := [(0xCBF, 0xCBF), (0xCC6, 0xCC6), (0x11A07, 0x11A08), (0x11C3F, 0x11C3F)]

/-- How a character is placed. -/
def Direction.of (c : Char) : Direction :=
  if (Text.isNonspacing c && !placedMarks.has c) || c == Char.ofNat 0x1171E then .mark
  else if rightToLeftRuns.has c then .rightToLeft
  else if arabicNumberRuns.has c then .arabicNumber
  else if europeanNumberRuns.has c then .europeanNumber
  else if neutralRuns.has c then .neutral
  else if separatorRuns.has c then .separator
  else .leftToRight

/-! ## Labels -/

/-- Whether some characters make a domain keep the rule of directions. -/
def runsRightToLeft (directions : List Direction) : Bool :=
  directions.contains .rightToLeft || directions.contains .arabicNumber

/-- Whether some characters, less the marks at their end, end in one of some kinds. -/
def endsIn (kinds directions : List Direction) : Bool :=
  (directions.reverse.dropWhile (· == .mark)).head?.any kinds.contains

/-- Whether a label has one direction. -/
def hasOneDirection (directions : List Direction) : Bool :=
  match directions.head? with
  | none => true
  | some .leftToRight =>
    directions.all [.leftToRight, .europeanNumber, .neutral, .mark].contains &&
      endsIn [.leftToRight, .europeanNumber] directions
  | some .rightToLeft =>
    directions.all [.rightToLeft, .arabicNumber, .europeanNumber, .neutral, .mark].contains &&
      endsIn [.rightToLeft, .arabicNumber, .europeanNumber] directions &&
      !(directions.contains .arabicNumber && directions.contains .europeanNumber)
  | some _ => false

/-- Whether the labels of a domain keep the rule of directions. -/
def keepDirections (labels : List (List Char)) : Bool :=
  let directions := labels.map (·.map Direction.of)
  !directions.any runsRightToLeft || directions.all hasOneDirection

/-! ## Tests -/

example : hasOneDirection [.rightToLeft, .neutral, .arabicNumber, .mark] := by decide
example : ¬ hasOneDirection [.rightToLeft, .arabicNumber, .europeanNumber] := by decide
example : ¬ hasOneDirection [.europeanNumber, .leftToRight] := by decide
example : ¬ hasOneDirection [.leftToRight, .neutral] := by decide

end SchemaDoc.Domain
