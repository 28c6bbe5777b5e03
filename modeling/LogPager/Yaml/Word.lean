import LogPager.Text.Blank
import LogPager.Text.Digits
import LogPager.Yaml.Scalar

/-!
# Whole numbers in scalars

An unsigned number of 64 bits, in decimal or after a mark of its base, with
underscores anywhere among its digits.
-/

namespace LogPager.Yaml

def baseAndDigits : List Char → Nat × List Char
  | '0' :: 'x' :: digits | '0' :: 'X' :: digits => (16, digits)
  | '0' :: 'o' :: digits | '0' :: 'O' :: digits => (8, digits)
  | '0' :: 'b' :: digits | '0' :: 'B' :: digits => (2, digits)
  | digits => (10, digits)

/-- The number that digits of a base spell; there is at least one. -/
def digitsIn? (base : Nat) (digits : List Char) : Option Nat :=
  match digits.filter (· ≠ '_') with
  | [] => none
  | digits =>
      digits.foldlM (fun total digit =>
        ((hexValue? digit).filter (· < base)).map (base * total + ·)) 0

/-- The number that a text spells after an optional plus sign. -/
def word? (text : String) : Option Nat :=
  let trimmed := Text.trim text.toList
  let unsigned := if trimmed.head? = some '+' then trimmed.drop 1 else trimmed
  let (base, digits) := baseAndDigits unsigned
  (digitsIn? base digits).filter (· < Text.wordBound)

end LogPager.Yaml
