import StreamJoin.Binary.Shortest
import StreamJoin.Text.Hexadecimal
import StreamJoin.Value.Basic

namespace StreamJoin

/-!
# Values as text

The text of a value in messages.  Floating-point numbers are written with the
fewest digits that read back at their width, never with a power of ten, and
without a fraction when they are whole; of two decimals equally near to the number
the larger one is taken.  Texts stand between single quotes as they are, and byte
strings are written in hexadecimal.
-/

namespace BinaryFormat

variable (format : BinaryFormat)

/-- The magnitude of a finite word in positional notation. -/
def plainMagnitude (magnitude : Nat) : List Char :=
  if magnitude = 0 then
    ['0']
  else
    match (format.shortestDecimal .up magnitude).positional with
    | (whole, []) => digitText whole
    | (whole, fraction) => digitText whole ++ '.' :: digitText fraction

/-- A floating-point word as text. -/
def plainText (word : Nat) : String :=
  if format.isNaN word then
    "NaN"
  else
    let magnitude :=
      if format.isInfinite word then
        "inf".toList
      else
        format.plainMagnitude (format.magnitude word)
    String.ofList (if format.isNegative word then '-' :: magnitude else magnitude)

end BinaryFormat

/-- The two hexadecimal digits of a byte. -/
def hexByte (byte : UInt8) : List Char :=
  [hexDigit (byte.toNat / 16), hexDigit (byte.toNat % 16)]

namespace Value

/-- The text of a value in messages. -/
def text : Value → String
  | .null => "null"
  | .boolean truth => if truth then "true" else "false"
  | .int number => number.toInt.repr
  | .long number => number.toInt.repr
  | .float word => BinaryFormat.single.plainText word.toNat
  | .double word => BinaryFormat.double.plainText word.toNat
  | .string text => "'" ++ text ++ "'"
  | .bytes content =>
      String.ofList ("x'".toList ++ content.flatMap hexByte ++ ['\''])

end Value

end StreamJoin
