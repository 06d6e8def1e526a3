import StreamJoin.Binary.Rounding
import StreamJoin.Value.Basic

namespace StreamJoin

/-!
# SQL comparison

Whole numbers compare exactly with one another.  As soon as one of two numbers is
floating point, both are taken as 64-bit floating-point numbers, and a word that
is no number is unordered.  Texts compare by code point, which is also the order
of their UTF-8 bytes, and byte strings byte by byte.  Null is unordered, and so
are values of types that have no common order.
-/

namespace Value

/--
A number as a 64-bit floating-point number: long numbers are rounded, and all
other numbers are exact.
-/
def asDouble? : Value → Option Extended
  | .int number => some (.ofInt number.toInt)
  | .long number =>
      some (.ofWord .double (BinaryFormat.double.ofInt number.toInt))
  | .float word => some (.ofWord .single word.toNat)
  | .double word => some (.ofWord .double word.toNat)
  | _ => none

/-- The SQL order of two values, where they have one. -/
def sqlOrder? : Value → Value → Option Ordering
  | .null, _ => none
  | _, .null => none
  | .boolean left, .boolean right => some (compare left.toNat right.toNat)
  | .int left, .int right => some (compare left.toInt right.toInt)
  | .int left, .long right => some (compare left.toInt right.toInt)
  | .long left, .int right => some (compare left.toInt right.toInt)
  | .long left, .long right => some (compare left.toInt right.toInt)
  | .string left, .string right =>
      some (compare (codePoints left) (codePoints right))
  | .bytes left, .bytes right =>
      some (compare (left.map UInt8.toNat) (right.map UInt8.toNat))
  | left, right =>
      match left.asDouble?, right.asDouble? with
      | some leftNumber, some rightNumber => leftNumber.order rightNumber
      | _, _ => none

end Value

end StreamJoin
