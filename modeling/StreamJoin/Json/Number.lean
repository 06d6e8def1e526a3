import StreamJoin.Binary.Shortest
import StreamJoin.Json.Basic
import StreamJoin.Text.Numeral

namespace StreamJoin

/-!
# The value of JSON numbers

A number without fraction and exponent is whole if it fits a 64-bit word, and every
other number is a 64-bit floating-point number.

The digits of a number are taken into a 64-bit significand for as long as they fit.
Whole digits that are left over count as powers of ten, and digits of the fraction
that are left over are dropped.  The significand is then rounded and multiplied or
divided by a rounded power of ten.  The result can therefore differ from the
nearest floating-point number; a number beyond the largest one is refused.
-/

/--
The value of a number: whole with either sign, or a 64-bit floating-point word.
-/
inductive NumberValue where
  | unsigned (number : Nat)
  | negative (magnitude : Nat)
  | floating (word : Nat)
  deriving Repr, DecidableEq

/-- Take digits into a significand while it fits, and give those left over. -/
def absorbDigits (significand : Nat) : List Digit → Nat × List Digit
  | [] => (significand, [])
  | digit :: rest =>
      let extended := 10 * significand + digit.val
      if extended < wordBound then
        absorbDigits extended rest
      else
        (significand, digit :: rest)

/-- The largest power of ten that a single operation multiplies or divides by. -/
def largestTenPower : Nat := 308

/-- The magnitude word of a power of ten. -/
def tenPowerWord (power : Nat) : Nat :=
  BinaryFormat.double.roundRatio (Nat.pow 10 power) 1

/--
Divide a magnitude word by a power of ten, in as many steps as powers of ten need.
-/
def divideByTenPower (word power : Nat) : Nat :=
  let double := BinaryFormat.double
  if power ≤ largestTenPower then
    double.divWord word (tenPowerWord power)
  else if power ≤ 2 * largestTenPower then
    double.divWord (double.divWord word (tenPowerWord largestTenPower))
      (tenPowerWord (power - largestTenPower))
  else
    0

/--
The magnitude word of a significand times a power of ten, unless it is too large.
-/
def scaleSignificand? (significand : Nat) (power : Int) : Option Nat :=
  let word := BinaryFormat.double.roundRatio significand 1
  match power with
  | .ofNat raised =>
      if raised ≤ largestTenPower then
        let product := BinaryFormat.double.mulWord word (tenPowerWord raised)
        if product = BinaryFormat.double.infinityWord then none else some product
      else if significand = 0 then
        some 0
      else
        none
  | .negSucc lowered => some (divideByTenPower word (lowered + 1))

namespace JsonExponent

/-- The power of ten that an exponent stands for. -/
def value (exponent : JsonExponent) : Int :=
  match exponent.sign with
  | .minus => -(valueOfDigits exponent.digits : Int)
  | _ => valueOfDigits exponent.digits

end JsonExponent

namespace JsonNumber

/-- Whether a number is written without fraction and exponent. -/
def isPlain (number : JsonNumber) : Bool :=
  number.fraction.isEmpty && number.exponent.isNone

/-- The floating-point value of a number, unless it is too large. -/
def floating? (number : JsonNumber) : Option NumberValue :=
  let (wholePart, surplusDigits) := absorbDigits 0 number.whole
  let (significand, droppedDigits) := absorbDigits wholePart number.fraction
  let places := number.fraction.length - droppedDigits.length
  let written := (number.exponent.map JsonExponent.value).getD 0
  let power : Int := surplusDigits.length - places + written
  (scaleSignificand? significand power).map fun magnitude =>
    .floating (BinaryFormat.double.withSign number.negative magnitude)

/--
The value of a number, unless it is too large.  A zero with a minus sign is a
floating-point number, and so is a negative number below the 64-bit range.
-/
def value? (number : JsonNumber) : Option NumberValue :=
  let (wholePart, surplusDigits) := absorbDigits 0 number.whole
  if number.isPlain && surplusDigits.isEmpty then
    if !number.negative then
      some (.unsigned wholePart)
    else if 0 < wholePart ∧ wholePart ≤ wordBound / 2 then
      some (.negative wholePart)
    else
      let magnitude := BinaryFormat.double.roundRatio wholePart 1
      some (.floating (BinaryFormat.double.withSign true magnitude))
  else
    number.floating?

/-- A whole number as it is written. -/
def ofInt (number : Int) : JsonNumber :=
  ⟨number < 0, decimalDigits number.natAbs, [], none⟩

end JsonNumber

namespace NumberValue

/--
A whole number in a range, the upper bound excluded; floating-point numbers are
refused.
-/
def inRange? (low high : Int) (value : NumberValue) : Option Int :=
  let number? : Option Int :=
    match value with
    | .unsigned number => some number
    | .negative magnitude => some (-magnitude)
    | .floating _ => none
  number?.filter fun number => low ≤ number && number < high

/-- A number as a 64-bit floating-point word. -/
def toDouble : NumberValue → Nat
  | .unsigned number => BinaryFormat.double.ofInt number
  | .negative magnitude => BinaryFormat.double.ofInt (-magnitude)
  | .floating word => word

/-- A number as a 32-bit floating-point word; whole numbers are rounded once. -/
def toSingle : NumberValue → Nat
  | .unsigned number => BinaryFormat.single.ofInt number
  | .negative magnitude => BinaryFormat.single.ofInt (-magnitude)
  | .floating word => narrowWord word

end NumberValue

/-!
## Writing floating-point numbers

The shortest decimal that reads back is written, of two equally near ones that with
an even last digit.  Small and large numbers are written with a power of ten.
-/

/--
For which powers of ten of the first digit a format is written without exponent.
-/
structure PositionalRange where
  lowest : Int
  highest : Int
  deriving Repr, DecidableEq

/-- The positional range of 64-bit numbers. -/
def doublePositional : PositionalRange := ⟨-5, 15⟩

/-- The positional range of 32-bit numbers. -/
def singlePositional : PositionalRange := ⟨-6, 12⟩

namespace Decimal

/-- A decimal as a JSON number; a positional one always has a fraction. -/
def toJsonNumber
    (decimal : Decimal)
    (negative : Bool)
    (range : PositionalRange) :
    JsonNumber :=
  let leading := decimal.leadingExponent
  if range.lowest ≤ leading ∧ leading ≤ range.highest then
    match decimal.positional with
    | (whole, []) => ⟨negative, whole, [Digit.zero], none⟩
    | (whole, fraction) => ⟨negative, whole, fraction, none⟩
  else
    let sign := if leading < 0 then ExponentSign.minus else .plus
    ⟨negative, decimal.digits.take 1, decimal.digits.drop 1,
      some ⟨sign, decimalDigits leading.natAbs⟩⟩

end Decimal

namespace BinaryFormat

/-- A floating-point word as JSON; words that are no finite number become null. -/
def toJson (format : BinaryFormat) (range : PositionalRange) (word : Nat) : Json :=
  let magnitude := format.magnitude word
  let negative := format.isNegative word
  if !format.isFinite word then
    .null
  else if magnitude = 0 then
    .number ⟨negative, [Digit.zero], [Digit.zero], none⟩
  else
    .number ((format.shortestDecimal .even magnitude).toJsonNumber negative range)

end BinaryFormat

end StreamJoin
