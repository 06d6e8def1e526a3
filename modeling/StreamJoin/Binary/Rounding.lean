import StreamJoin.Binary.Format

namespace StreamJoin

/-!
# Rounding to a binary format

This module takes exact quotients to floating-point words.  One rule serves every
conversion and every operation: the word nearest to the exact result, and of two
equally near ones the word whose last bit is zero.  A result of at least the
bound half a step above the largest number becomes infinity.
-/

/-- The whole number nearest to a quotient; a half goes to the even neighbour. -/
def divNearestEven (numerator denominator : Nat) : Nat :=
  let quotient := numerator / denominator
  let twiceRemainder := 2 * (numerator % denominator)
  if twiceRemainder < denominator then
    quotient
  else if denominator < twiceRemainder then
    quotient + 1
  else
    quotient + quotient % 2

namespace BinaryFormat

variable (format : BinaryFormat)

/--
The magnitude word nearest to a quotient of units.

The step between words is one unit while the quotient has at most as many bits
as a fraction with its hidden bit, and doubles with each further bit.  Counting
steps of that size and adding the words below the binade gives the word itself,
also where rounding carries into the next binade.
-/
def roundUnits (numerator denominator : Nat) : Nat :=
  let bits := (numerator / denominator).log2 + 1
  let doublings := bits - (format.fractionBits + 1)
  let word :=
    doublings * format.hiddenBit +
      divNearestEven numerator (denominator * Nat.pow 2 doublings)
  min word format.infinityWord

/-- A magnitude word under a sign. -/
def withSign (negative : Bool) (magnitude : Nat) : Nat :=
  if negative then format.signBit + magnitude else magnitude

/-- The magnitude word nearest to a quotient of whole numbers. -/
def roundRatio (numerator denominator : Nat) : Nat :=
  format.roundUnits (numerator * format.unitsPerOne) denominator

/-- The word nearest to a whole number. -/
def ofInt (value : Int) : Nat :=
  format.withSign (value < 0) (format.roundRatio value.natAbs 1)

/-- The magnitude word of the product of two magnitude words. -/
def mulWord (left right : Nat) : Nat :=
  format.roundUnits (format.units left * format.units right) format.unitsPerOne

/-- The magnitude word of the quotient of two magnitude words. -/
def divWord (left right : Nat) : Nat :=
  format.roundUnits (format.units left * format.unitsPerOne) (format.units right)

end BinaryFormat

/--
The 32-bit word nearest to a 64-bit word.  Infinities stay infinite, and a word
that is no number keeps its sign and becomes a quiet one.
-/
def narrowWord (word : Nat) : Nat :=
  let wide := BinaryFormat.double
  let narrow := BinaryFormat.single
  let magnitude :=
    if wide.isNaN word then
      narrow.infinityWord + narrow.hiddenBit / 2
    else if wide.isInfinite word then
      narrow.infinityWord
    else
      narrow.roundUnits (wide.units (wide.magnitude word))
        (Nat.pow 2 (wide.unitExponent - narrow.unitExponent))
  narrow.withSign (wide.isNegative word) magnitude

end StreamJoin
