import LogPager.Text.Digits

/-!
# Decimals read as floating-point numbers

A decimal is read in two steps.  Its leading digits, as many as fit an
unsigned number of 64 bits, make the significand; the digits before the point
that no longer fit only raise the exponent, and those after it are left out.
The significand is then multiplied or divided by the power of ten, which takes
one rounding more than the nearest number would.
-/

namespace LogPager.Decimal

/-- The digits taken so far and the power of ten they are counted in. -/
structure Significand where
  value : Nat
  exponent : Int
deriving DecidableEq, Repr

namespace Significand

/-- Take the digits that fit, and what is left of them. -/
def absorb (value : Nat) : List Char → Nat × List Char
  | [] => (value, [])
  | digit :: rest =>
      let next := 10 * value + (digit.toNat - '0'.toNat)
      if next < Text.wordBound then absorb next rest
      else (value, digit :: rest)

/-- The significand of the digits before and after the point. -/
def ofDigits (whole fraction : List Char) : Significand :=
  let (value, unread) := absorb 0 whole
  let (total, left) := absorb value fraction
  {
    value := total
    exponent := (unread.length : Int) - (fraction.length - left.length) }

end Significand

/-- The largest power of ten that a finite number can be. -/
def greatestPower : Nat := 308

/-- The number nearest to a power of ten. -/
def powerOfTen (power : Nat) : Float :=
  Float.ofScientific 1 false power

/-- Scale down by powers of ten until the remaining one is small enough;
`steps` bounds the divisions. -/
def divideByPower : (steps : Nat) → Float → (power : Nat) → Float
  | 0, value, _ => value
  | steps + 1, value, power =>
      if power ≤ greatestPower then value / powerOfTen power
      else if value == 0 then value
      else divideByPower steps (value / powerOfTen greatestPower)
        (power - greatestPower)

/-- The magnitude of a decimal, none when it is too large.  Four divisions
turn every significand into zero. -/
def Significand.toFloat? (significand : Significand) : Option Float :=
  let value := Float.ofNat significand.value
  if significand.exponent < 0 then
    some (divideByPower 4 value significand.exponent.natAbs)
  else if significand.value = 0 then some value
  else if significand.exponent.toNat > greatestPower then none
  else
    let product := value * powerOfTen significand.exponent.toNat
    if product.isInf then none else some product

/-- The number that a decimal of the given digits is read as, none when it is
too large. -/
def read? (negative : Bool) (whole fraction : List Char) (exponent : Int) :
    Option Float :=
  let digits := Significand.ofDigits whole fraction
  let scaled : Significand := { digits with exponent := digits.exponent + exponent }
  scaled.toFloat?.map fun magnitude => if negative then -magnitude else magnitude

end LogPager.Decimal
