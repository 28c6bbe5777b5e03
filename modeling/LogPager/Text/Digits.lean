/-!
# Digits and whole numbers in text

The characters with the Unicode property Decimal_Number, and the reading of
unsigned numbers of 64 bits from ASCII digits.
-/

namespace LogPager.Text

/-- The code points of the digits zero; the digits one to nine follow each. -/
def digitZeros : List Nat :=
  [0x0030, 0x0660, 0x06F0, 0x07C0, 0x0966, 0x09E6, 0x0A66, 0x0AE6, 0x0B66, 0x0BE6, 0x0C66,
    0x0CE6, 0x0D66, 0x0DE6, 0x0E50, 0x0ED0, 0x0F20, 0x1040, 0x1090, 0x17E0, 0x1810, 0x1946,
    0x19D0, 0x1A80, 0x1A90, 0x1B50, 0x1BB0, 0x1C40, 0x1C50, 0xA620, 0xA8D0, 0xA900, 0xA9D0,
    0xA9F0, 0xAA50, 0xABF0, 0xFF10, 0x104A0, 0x10D30, 0x10D40, 0x11066, 0x110F0, 0x11136,
    0x111D0, 0x112F0, 0x11450, 0x114D0, 0x11650, 0x116C0, 0x116D0, 0x116DA, 0x11730,
    0x118E0, 0x11950, 0x11BF0, 0x11C50, 0x11D50, 0x11DA0, 0x11F50, 0x16A60, 0x16AC0,
    0x16B50, 0x1CCF0, 0x1D7CE, 0x1D7D8, 0x1D7E2, 0x1D7EC, 0x1D7F6, 0x1E140, 0x1E2F0,
    0x1E4F0, 0x1E5F1, 0x1E950, 0x1FBF0]

/-- A character is a decimal digit, in any script. -/
def isDecimalDigit (character : Char) : Bool :=
  digitZeros.any fun first =>
    first ≤ character.toNat && character.toNat ≤ first + 9

/-- The value of an ASCII digit. -/
def digitValue? (character : Char) : Option Nat :=
  if character.isDigit then some (character.toNat - '0'.toNat) else none

/-- The number that a list of ASCII digits spells, none for any other text. -/
def readDigits? : List Char → Option Nat
  | [] => none
  | digits => digits.foldlM (fun total digit =>
      (digitValue? digit).map (10 * total + ·)) 0

/-- One more than the largest unsigned number of 64 bits. -/
def wordBound : Nat := Nat.pow 2 64

/-- An unsigned number of 64 bits: ASCII digits, leading zeros allowed, after
at most one plus sign. -/
def readWord? (text : List Char) : Option Nat :=
  let digits := match text with
    | '+' :: rest => rest
    | _ => text
  (readDigits? digits).filter (· < wordBound)

end LogPager.Text
