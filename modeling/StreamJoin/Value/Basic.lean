namespace StreamJoin

/-!
# Values and rows

A value is a typed scalar or the SQL null.  Equality of values is structural:
values of different types are different, and floating-point values are equal when
their words are, so a zero differs from a negative zero and every word that is no
number equals itself.  That makes values fit to be parts of keys.

The comparison that a query asks for is another one; it is in
`StreamJoin.Value.Comparison`.
-/

/-- The logical type of a column. -/
inductive ColumnType where
  | boolean
  | int
  | long
  | float
  | double
  | string
  | bytes
  deriving Repr, DecidableEq

namespace ColumnType

/-- The name of a type in schemas, messages and JSON. -/
def label : ColumnType → String
  | .boolean => "BOOLEAN"
  | .int => "INT"
  | .long => "LONG"
  | .float => "FLOAT"
  | .double => "DOUBLE"
  | .string => "STRING"
  | .bytes => "BYTES"

/-- Every type, in the order of declaration. -/
def all : List ColumnType :=
  [.boolean, .int, .long, .float, .double, .string, .bytes]

/-- The type with a given name. -/
def ofLabel? (label : String) : Option ColumnType :=
  all.find? fun type => type.label = label

end ColumnType

/--
A typed scalar or null.  Floating-point values are held as their interchange
words.
-/
inductive Value where
  | null
  | boolean (truth : Bool)
  | int (number : Int32)
  | long (number : Int64)
  | float (word : UInt32)
  | double (word : UInt64)
  | string (text : String)
  | bytes (content : List UInt8)
  deriving Repr, DecidableEq

/-- A row is a list of values, one for each column. -/
abbrev Row := List Value

namespace Value

/-- The code points of a text, which order texts as their UTF-8 bytes do. -/
def codePoints (text : String) : List Nat := text.toList.map Char.toNat

/-- Whether a value is the SQL null. -/
def isNull : Value → Bool
  | .null => true
  | _ => false

/-- The type of a value; null has none. -/
def type? : Value → Option ColumnType
  | .null => none
  | .boolean _ => some .boolean
  | .int _ => some .int
  | .long _ => some .long
  | .float _ => some .float
  | .double _ => some .double
  | .string _ => some .string
  | .bytes _ => some .bytes

instance : Coe Bool Value := ⟨.boolean⟩

instance : Coe Int32 Value := ⟨.int⟩

instance : Coe Int64 Value := ⟨.long⟩

instance : Coe String Value := ⟨.string⟩

/-- A value that may be absent; absence is null. -/
def ofOption {Content : Type} (embed : Content → Value) : Option Content → Value
  | some content => embed content
  | none => .null

end Value

/-- A row of nulls. -/
def nulls (width : Nat) : Row := List.replicate width .null

/-- A null row has the width asked for. -/
theorem length_nulls (width : Nat) : (nulls width).length = width := by
  simp [nulls]

end StreamJoin
