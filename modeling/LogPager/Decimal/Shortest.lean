import LogPager.Text.Digits

/-!
# Shortest decimals

The decimal with the fewest digits that a binary floating-point number of 64
bits reads back from, and of those the nearest.  A finite number is taken as
`mantissa * 2 ^ exponent`; the decimals that round to it form an interval, and
the grids of one, two and more digits are tried in turn.
-/

namespace LogPager.Decimal

/-- The magnitude of a finite number. -/
structure Binary where
  mantissa : Nat
  exponent : Int
  /-- The number below is only half as far away as the number above. -/
  closeBelow : Bool
deriving DecidableEq, Repr

/-- The magnitude of a number, none for infinities and what is no number. -/
def Binary.ofFloat? (value : Float) : Option Binary :=
  let bits := value.toBits.toNat
  let fraction : Nat := bits % Nat.pow 2 52
  let biased : Nat := bits / Nat.pow 2 52 % Nat.pow 2 11
  if biased = 2047 then none
  else if biased = 0 then
    some { mantissa := fraction, exponent := -1074, closeBelow := false }
  else
    some {
      mantissa := Nat.pow 2 52 + fraction
      exponent := (biased : Int) - 1075
      closeBelow := fraction = 0 && biased ≠ 1 }

/-- A positive decimal: `digits * 10 ^ exponent`. -/
structure Scaled where
  digits : Nat
  exponent : Int
deriving DecidableEq, Repr

/-- Ten times as coarse while no digit is lost; `places` bounds the steps. -/
def Scaled.stripZeros : Nat → Scaled → Scaled
  | 0, value => value
  | places + 1, value =>
      if value.digits % 10 = 0 then
        stripZeros places ⟨value.digits / 10, value.exponent + 1⟩
      else value

namespace Binary

/-- Four times the number, its lower and its upper end of rounding, over a
common denominator. -/
structure Interval where
  low : Nat
  value : Nat
  high : Nat
  denominator : Nat
  /-- Whether the ends themselves round to the number. -/
  closed : Bool

/-- The decimals that round to the number. -/
def interval (number : Binary) : Interval :=
  let scale := Nat.pow 2 (number.exponent - 2).toNat
  {
    low := (4 * number.mantissa - (if number.closeBelow then 1 else 2)) * scale
    value := 4 * number.mantissa * scale
    high := (4 * number.mantissa + 2) * scale
    denominator := Nat.pow 2 (2 - number.exponent).toNat
    closed := number.mantissa % 2 = 0 }

/-- The decimal exponent of the leading digit.  The shift makes the quotient
of every number at least ten. -/
def leadingExponent (number : Binary) : Int :=
  let interval := number.interval
  let quotient := interval.value * Nat.pow 10 350 / interval.denominator
  ((Nat.toDigits 10 quotient).length : Int) - 351

/-- The multiple of `10 ^ unit` nearest to the number among its two
neighbours, if one of them rounds to the number. -/
def onGrid? (number : Binary) (unit : Int) : Option Scaled :=
  let interval := number.interval
  let scaled := Nat.pow 10 (-unit).toNat
  let step := interval.denominator * Nat.pow 10 unit.toNat
  let inside (count : Nat) : Bool :=
    let point := count * step
    if interval.closed then
      interval.low * scaled ≤ point && point ≤ interval.high * scaled
    else interval.low * scaled < point && point < interval.high * scaled
  let below := interval.value * scaled / step
  let above := below + 1
  let distanceBelow := interval.value * scaled - below * step
  let distanceAbove := above * step - interval.value * scaled
  let nearer :=
    if distanceBelow < distanceAbove ∨
      (distanceBelow = distanceAbove ∧ below % 2 = 0) then below else above
  let farther := if nearer = below then above else below
  if inside nearer then some ⟨nearer, unit⟩
  else if inside farther then some ⟨farther, unit⟩
  else none

/-- The shortest decimal of a positive number; seventeen digits always
suffice. -/
def shortest (number : Binary) : Scaled :=
  let leading := number.leadingExponent
  let found := (List.range 17).findSome? fun (places : Nat) =>
    number.onGrid? (leading - places)
  (found.getD ⟨0, 0⟩).stripZeros 20

end Binary

/-- How a decimal is laid out: which exponents of the leading digit are
written positionally. -/
structure Layout where
  leastPositional : Int
  greatestPositional : Int

def zeros (count : Nat) : List Char :=
  List.replicate count '0'

/-- A decimal with a point and at least one digit on each side of it. -/
def positional (digits : List Char) (exponent : Int) : List Char :=
  if exponent < 0 then
    '0' :: '.' :: zeros (-exponent - 1).toNat ++ digits
  else
    let whole := exponent.toNat + 1
    let padded := digits ++ zeros (whole - digits.length)
    let fraction := padded.drop whole
    padded.take whole ++ '.' :: (if fraction.isEmpty then ['0'] else fraction)

/-- A decimal with one digit before the point and an exponent, whose sign is
always written. -/
def scientific (digits : List Char) (exponent : Int) : List Char :=
  let sign := if exponent < 0 then '-' else '+'
  let mantissa := match digits with
    | first :: second :: rest => first :: '.' :: second :: rest
    | _ => digits
  mantissa ++ 'e' :: sign :: Nat.toDigits 10 exponent.natAbs

/-- The digits of a decimal in the given layout. -/
def Scaled.render (layout : Layout) (value : Scaled) : List Char :=
  let digits := Nat.toDigits 10 value.digits
  let exponent := value.exponent + digits.length - 1
  if layout.leastPositional ≤ exponent ∧ exponent ≤ layout.greatestPositional
  then positional digits exponent
  else scientific digits exponent

/-- A finite number in the given layout, with the sign of a zero. -/
def render (layout : Layout) (value : Float) : List Char :=
  let magnitude := match Binary.ofFloat? value with
    | none => []
    | some number =>
        if number.mantissa = 0 then ['0', '.', '0']
        else number.shortest.render layout
  if value.toBits ≥ 0x8000000000000000 then '-' :: magnitude else magnitude

end LogPager.Decimal
