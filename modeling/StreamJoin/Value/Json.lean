import StreamJoin.Json.Document
import StreamJoin.Json.Number
import StreamJoin.Value.Basic

namespace StreamJoin

/-!
# Values as JSON

A value is an object with one member, whose name is the type and whose content is
the value; null is the text `Null`.  Floating-point values that are no finite number
are written as null and cannot be read back.
-/

namespace Value

/-- An object with one member. -/
def tagged (tag : String) (content : Json) : Json :=
  .object [(unitsOfText tag, content)]

/-- A value as a JSON document. -/
def toJson : Value → Json
  | .null => .text (unitsOfText "Null")
  | .boolean truth => tagged "Boolean" (.boolean truth)
  | .int number => tagged "Int" (.number (.ofInt number.toInt))
  | .long number => tagged "Long" (.number (.ofInt number.toInt))
  | .float word =>
      tagged "Float" (BinaryFormat.single.toJson singlePositional word.toNat)
  | .double word =>
      tagged "Double" (BinaryFormat.double.toJson doublePositional word.toNat)
  | .string text => tagged "String" (.text (unitsOfText text))
  | .bytes content =>
      tagged "Bytes" (.array (content.map fun byte => .number (.ofInt byte.toNat)))

/-- A whole number in a range, the upper bound excluded. -/
def readInteger? (low high : Int) : Json → Option Int
  | .number number => number.value?.bind (NumberValue.inRange? low high)
  | _ => none

/-- A byte. -/
def readByte? (document : Json) : Option UInt8 :=
  (readInteger? 0 256 document).map fun byte => UInt8.ofNat byte.toNat

/-- The content of a member with the name of a type. -/
def ofMember? (tag : String) (content : Json) : Option Value :=
  match tag, content with
  | "Null", .null => some .null
  | "Boolean", .boolean truth => some (.boolean truth)
  | "Int", number =>
      (readInteger? (-2147483648) 2147483648 number).map
        fun value => .int (Int32.ofInt value)
  | "Long", number =>
      (readInteger? (-9223372036854775808) 9223372036854775808 number).map
        fun value => .long (Int64.ofInt value)
  | "Float", .number number =>
      number.value?.map fun value => .float (UInt32.ofNat value.toSingle)
  | "Double", .number number =>
      number.value?.map fun value => .double (UInt64.ofNat value.toDouble)
  | "String", .text units => (textOfUnits? units).map .string
  | "Bytes", .array items => (items.mapM readByte?).map .bytes
  | _, _ => none

/-- The value that a JSON document stands for. -/
def ofJson? : Json → Option Value
  | .text units => if textOfUnits? units = some "Null" then some .null else none
  | .object [(name, content)] =>
      (textOfUnits? name).bind fun tag => ofMember? tag content
  | _ => none

/-- A value as JSON text. -/
def toJsonText (value : Value) : String := value.toJson.toText

/-- The value that a JSON text stands for. -/
def ofJsonText? (source : String) : Option Value :=
  (Json.ofText? source).bind ofJson?

end Value

end StreamJoin
