namespace StreamJoin

/-!
# Binary interchange formats

A binary floating-point word is a sign bit, an exponent field and a fraction
field.  This module reads such words as exact numbers.

Every finite magnitude of a format is a whole multiple of its smallest positive
number, the *unit*.  Magnitudes are therefore natural numbers of units here, and
no arithmetic on words is approximate: all rounding is in
`StreamJoin.Binary.Rounding`.
-/

/-- The widths of the two fields below the sign bit of a floating-point word. -/
structure BinaryFormat where
  exponentBits : Nat
  fractionBits : Nat
  deriving Repr, DecidableEq

namespace BinaryFormat

/-- The 32-bit format. -/
def single : BinaryFormat where
  exponentBits := 8
  fractionBits := 23

/-- The 64-bit format. -/
def double : BinaryFormat where
  exponentBits := 11
  fractionBits := 52

variable (format : BinaryFormat)

/-- The weight of the lowest exponent bit, which is also the hidden bit. -/
def hiddenBit : Nat := Nat.pow 2 format.fractionBits

/-- The weight of the sign bit. -/
def signBit : Nat := Nat.pow 2 (format.exponentBits + format.fractionBits)

/-- The magnitude word of infinity: the exponent field full, the fraction zero. -/
def infinityWord : Nat := (Nat.pow 2 format.exponentBits - 1) * format.hiddenBit

/-- The number of halvings that lead from one to the unit. -/
def unitExponent : Nat :=
  Nat.pow 2 (format.exponentBits - 1) - 2 + format.fractionBits

/-- How many units make one. -/
def unitsPerOne : Nat := Nat.pow 2 format.unitExponent

/-- Whether the sign bit of a word is set. -/
def isNegative (word : Nat) : Bool := format.signBit ≤ word

/-- A word without its sign bit. -/
def magnitude (word : Nat) : Nat := word % format.signBit

/-- A word is a number or an infinity unless its magnitude lies above infinity. -/
def isNaN (word : Nat) : Bool := format.infinityWord < format.magnitude word

/-- Whether a word is one of the two infinities. -/
def isInfinite (word : Nat) : Bool := format.magnitude word = format.infinityWord

/-- Whether a word denotes a number. -/
def isFinite (word : Nat) : Bool := format.magnitude word < format.infinityWord

/--
The number of units in a magnitude word.  Words with an empty exponent field
count units directly; each further exponent doubles the step between words.
-/
def units (magnitude : Nat) : Nat :=
  let exponent := magnitude / format.hiddenBit
  let fraction := magnitude % format.hiddenBit
  if exponent = 0 then
    fraction
  else
    (format.hiddenBit + fraction) * Nat.pow 2 (exponent - 1)

end BinaryFormat

/--
What a floating-point word denotes once its format is forgotten: an exact number,
an infinity, or no number at all.  Numbers count units of the 64-bit format, of
which every 32-bit number is a multiple as well.
-/
inductive Extended where
  | nan
  | negativeInfinity
  | positiveInfinity
  | finite (units : Int)
  deriving Repr, DecidableEq

namespace Extended

/-- The number of 64-bit units in a whole number. -/
def ofInt (value : Int) : Extended :=
  .finite (value * BinaryFormat.double.unitsPerOne)

/-- The number denoted by a word of a format no finer than the 64-bit one. -/
def ofWord (format : BinaryFormat) (word : Nat) : Extended :=
  if format.isNaN word then
    .nan
  else if format.isInfinite word then
    if format.isNegative word then .negativeInfinity else .positiveInfinity
  else
    let scale := Nat.pow 2 (BinaryFormat.double.unitExponent - format.unitExponent)
    let magnitude : Int := (format.units (format.magnitude word) * scale : Nat)
    .finite (if format.isNegative word then -magnitude else magnitude)

/-- The order of two denotations; a word that is no number is unordered. -/
def order : Extended → Extended → Option Ordering
  | .nan, _ => none
  | _, .nan => none
  | .negativeInfinity, .negativeInfinity => some .eq
  | .negativeInfinity, _ => some .lt
  | _, .negativeInfinity => some .gt
  | .positiveInfinity, .positiveInfinity => some .eq
  | .positiveInfinity, _ => some .gt
  | _, .positiveInfinity => some .lt
  | .finite left, .finite right => some (compare left right)

end Extended

end StreamJoin
