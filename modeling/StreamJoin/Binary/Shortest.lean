import StreamJoin.Binary.Rounding
import StreamJoin.Text.Digits

namespace StreamJoin

/-!
# Shortest decimals of binary numbers

A finite word is written with the fewest decimal digits that still round to it.
The reals that round to a word form an interval whose ends are the midpoints to
the neighbouring words; the ends belong to it when the word is even.  For one,
two, three, … digits the two decimals around the number are tried against that
interval, and the first grid with a decimal inside wins.

If any point of a decimal grid lies in the interval then one of the two points
around the number does, because the number lies in the interval itself.
-/

/-- The number `coefficient * 10 ^ exponent`. -/
structure Decimal where
  coefficient : Nat
  exponent : Int
  deriving Repr, DecidableEq

namespace Decimal

/-- The digits of the coefficient, the most significant one first. -/
def digits (decimal : Decimal) : List Digit :=
  decimalDigits decimal.coefficient

/-- The power of ten that belongs to the first digit. -/
def leadingExponent (decimal : Decimal) : Int :=
  decimal.exponent + (decimal.digits.length - 1)

/--
The digits before and after the decimal point when no power of ten is written.
The whole part has at least one digit; a whole number has no fraction.
-/
def positional (decimal : Decimal) : List Digit × List Digit :=
  match decimal.exponent with
  | .ofNat zeros => (decimal.digits ++ List.replicate zeros Digit.zero, [])
  | .negSucc predecessor =>
      let places := predecessor + 1
      let digits := decimal.digits
      if digits.length ≤ places then
        ([Digit.zero], List.replicate (places - digits.length) Digit.zero ++ digits)
      else
        digits.splitAt (digits.length - places)

end Decimal

/-- Where an exact tie between the two decimals around a number goes. -/
inductive TieRule where
  | up
  | even
  deriving Repr, DecidableEq

/-- The reals, in a common small unit, that round to one word. -/
structure RoundingInterval where
  lower : Nat
  upper : Nat
  closed : Bool
  deriving Repr, DecidableEq

namespace RoundingInterval

/-- Whether a point lies in the interval. -/
def contains (interval : RoundingInterval) (point : Nat) : Bool :=
  if interval.closed then
    interval.lower ≤ point && point ≤ interval.upper
  else
    interval.lower < point && point < interval.upper

/--
The multiple of `step` in the interval that is nearest to `number`, as the factor
of `step`; nothing when neither multiple around the number lies in the interval.
-/
def nearestMultiple?
    (interval : RoundingInterval)
    (tie : TieRule)
    (number step : Nat) :
    Option Nat :=
  let below := number / step
  let twiceExcess := 2 * (number % step)
  match interval.contains (below * step),
      interval.contains ((below + 1) * step) with
  | false, false => none
  | true, false => some below
  | false, true => some (below + 1)
  | true, true =>
      if twiceExcess < step then
        some below
      else if step < twiceExcess then
        some (below + 1)
      else
        match tie with
        | .up => some (below + 1)
        | .even => some (below + below % 2)

end RoundingInterval

namespace BinaryFormat

variable (format : BinaryFormat)

/--
A power of ten large enough that every positive number of the format, multiplied
by ten to it, has more whole digits than any shortest decimal needs.
-/
def decimalShift : Nat := format.unitExponent / 3 + 20

/-- How many digits always suffice for a decimal to round back to its word. -/
def sufficientDigits : Nat := (format.fractionBits + 1) * 30103 / 100000 + 2

/--
The shortest decimal of a positive finite magnitude word.

All quantities are multiplied by `2 * unitsPerOne * 10 ^ decimalShift`, which
makes the number, the midpoints and every decimal grid that is tried whole.
-/
def shortestDecimal (tie : TieRule) (magnitude : Nat) : Decimal :=
  let scaled (halfUnits : Nat) := halfUnits * Nat.pow 10 format.decimalShift
  let units := format.units magnitude
  let number := scaled (2 * units)
  let interval : RoundingInterval :=
    { lower := scaled (format.units (magnitude - 1) + units)
      upper := scaled (units + format.units (magnitude + 1))
      closed := magnitude % 2 = 0 }
  let one := 2 * format.unitsPerOne
  let wholeDigits := (decimalDigits (number / one)).length
  let grid (digitCount : Nat) : Option Decimal :=
    let dropped := wholeDigits - digitCount
    (interval.nearestMultiple? tie number (one * Nat.pow 10 dropped)).map
      fun coefficient =>
        if coefficient = Nat.pow 10 digitCount then
          ⟨1, (dropped + digitCount : Nat) - format.decimalShift⟩
        else
          ⟨coefficient, dropped - format.decimalShift⟩
  let counts := (List.range format.sufficientDigits).map (· + 1)
  (counts.findSome? grid).getD ⟨units, -format.unitExponent⟩

end BinaryFormat

end StreamJoin
