import StreamJoin.Proofs.NumericOrder
import StreamJoin.Proofs.WrittenDocuments
import StreamJoin.Schema.Json
import StreamJoin.Value.Json

namespace StreamJoin

/-!
# Values and schemas as JSON

What is sent as JSON arrives unchanged.  Every value that is not floating point and
every schema is read back from its text (`json_round_trip`), since a document is
read back from its text and the tag of a value tells its type.  Whole numbers are
written with all their digits, and the reader takes all digits of a number of 64
bits.

Floating-point words that are no finite numbers have a text as well.  Their content
is written as null, which is read as the content of no type but that of the SQL
null.
-/

/-- Digits whose number fits in 64 bits are all taken. -/
theorem absorbDigits_of_lt
    {significand : Nat}
    {digits : List Digit}
    (fits : extendByDigits significand digits < wordBound) :
    absorbDigits significand digits = (extendByDigits significand digits, []) := by
  induction digits generalizing significand with
  | nil => rfl
  | cons digit later inductionHypothesis =>
      have extendedFits : 10 * significand + digit.val < wordBound :=
        (le_extendByDigits _ later).trans_lt fits
      rw [absorbDigits, if_pos extendedFits]
      exact inductionHypothesis fits

namespace JsonNumber

/-- A whole number is written by the grammar. -/
theorem wellFormed_ofInt (number : Int) : (ofInt number).WellFormed where
  whole := wholeDigits_decimalDigits number.natAbs
  exponent := nofun

/-- A written whole number of 64 bits, with a sign or without, has its value. -/
theorem inRange?_value?_ofInt
    {low high number : Int}
    (lowest : -(2 ^ 63) ≤ low)
    (highest : high ≤ 2 ^ 64)
    (within : low ≤ number ∧ number < high) :
    (ofInt number).value?.bind (NumberValue.inRange? low high) = some number := by
  have wordBound_eq : wordBound = 18446744073709551616 := rfl
  have magnitude := valueOfDigits_decimalDigits number.natAbs
  have taken :
      absorbDigits 0 (decimalDigits number.natAbs) = (number.natAbs, []) := by
    have fits : extendByDigits 0 (decimalDigits number.natAbs) < wordBound := by
      rw [valueOfDigits] at magnitude
      omega
    rw [absorbDigits_of_lt fits]
    exact congrArg (·, []) magnitude
  rcases lt_or_ge number 0 with isNegative | notNegative
  · have small : 0 < number.natAbs ∧ number.natAbs ≤ wordBound / 2 := by omega
    simp [value?, ofInt, isPlain, taken, isNegative, small, NumberValue.inRange?,
      abs_of_neg isNegative, within]
  · simp [value?, ofInt, isPlain, taken, not_lt.mpr notNegative,
      NumberValue.inRange?, abs_of_nonneg notNegative, within]

end JsonNumber

/-- A list is read back when each of its items is. -/
theorem mapM_map_eq_some
    {Item Written : Type}
    {write : Item → Written}
    {read? : Written → Option Item}
    (readBack : ∀ item, read? (write item) = some item)
    (items : List Item) :
    (items.map write).mapM read? = some items := by
  induction items with
  | nil => rfl
  | cons item later inductionHypothesis =>
      rw [List.map_cons, List.mapM_cons, readBack, inductionHypothesis]
      rfl

namespace Value

/-- A whole number within the bounds is read back. -/
theorem readInteger?_ofInt
    {low high number : Int}
    (lowest : -(2 ^ 63) ≤ low)
    (highest : high ≤ 2 ^ 64)
    (within : low ≤ number ∧ number < high) :
    readInteger? low high (.number (.ofInt number)) = some number :=
  JsonNumber.inRange?_value?_ofInt lowest highest within

/-- A byte is read back. -/
theorem readByte?_ofInt (byte : UInt8) :
    readByte? (.number (.ofInt byte.toNat)) = some byte := by
  have bound := byte.toNat_lt
  have read :
      readInteger? 0 256 (.number (.ofInt byte.toNat)) = some (byte.toNat : Int) :=
    readInteger?_ofInt (by decide) (by decide) (by omega)
  rw [readByte?, read]
  simp

/-- A tagged document is written by the grammar if its content is. -/
theorem wellFormed_tagged
    {tag : String}
    {content : Json}
    (wellFormed : content.WellFormed) :
    (tagged tag content).WellFormed := by
  refine .object fun member listed => ?_
  obtain rfl := List.mem_singleton.mp listed
  exact wellFormed

/-- A tagged document is read by its one member. -/
theorem ofJson?_tagged (tag : String) (content : Json) :
    ofJson? (tagged tag content) = ofMember? tag content := by
  simp only [tagged, ofJson?, textOfUnits?_unitsOfText, Option.bind_some]

/-- A value that is no float is written by the grammar. -/
theorem wellFormed_toJson {value : Value} (notFloating : value.isFloating = false) :
    value.toJson.WellFormed := by
  cases value with
  | null => exact .text _
  | boolean truth => exact wellFormed_tagged (.boolean truth)
  | int number => exact wellFormed_tagged (.number (JsonNumber.wellFormed_ofInt _))
  | long number => exact wellFormed_tagged (.number (JsonNumber.wellFormed_ofInt _))
  | float word => cases notFloating
  | double word => cases notFloating
  | string text => exact wellFormed_tagged (.text _)
  | bytes content =>
      refine wellFormed_tagged (.array fun item listed => ?_)
      obtain ⟨byte, -, rfl⟩ := List.mem_map.mp listed
      exact .number (JsonNumber.wellFormed_ofInt _)

/-- The document of a value that is not floating point stands for the value. -/
theorem ofJson?_toJson {value : Value} (notFloating : value.isFloating = false) :
    ofJson? value.toJson = some value := by
  cases value with
  | null => simp [toJson, ofJson?, textOfUnits?_unitsOfText]
  | boolean truth => rw [toJson, ofJson?_tagged]; rfl
  | int number =>
      have read :
          readInteger? (-2147483648) 2147483648 (.number (.ofInt number.toInt)) =
            some number.toInt :=
        readInteger?_ofInt (by decide) (by decide)
          ⟨number.le_toInt, number.toInt_lt⟩
      rw [toJson, ofJson?_tagged]
      simp only [ofMember?, read, Option.map_some, Int32.ofInt_toInt]
  | long number =>
      have read :
          readInteger? (-9223372036854775808) 9223372036854775808
              (.number (.ofInt number.toInt)) =
            some number.toInt :=
        readInteger?_ofInt (by decide) (by decide)
          ⟨number.le_toInt, number.toInt_lt⟩
      rw [toJson, ofJson?_tagged]
      simp only [ofMember?, read, Option.map_some, Int64.ofInt_toInt]
  | float word => cases notFloating
  | double word => cases notFloating
  | string text =>
      rw [toJson, ofJson?_tagged]
      simp only [ofMember?, textOfUnits?_unitsOfText, Option.map_some]
  | bytes content =>
      rw [toJson, ofJson?_tagged]
      simp only [ofMember?, mapM_map_eq_some readByte?_ofInt, Option.map_some]

/-- A value that is not floating point is read back from its text. -/
theorem ofJsonText?_toJsonText
    {value : Value}
    (notFloating : value.isFloating = false) :
    ofJsonText? value.toJsonText = some value := by
  rw [ofJsonText?, toJsonText, Json.ofText?_toText (wellFormed_toJson notFloating)]
  exact ofJson?_toJson notFloating

/-- The content of a floating-point value that is no finite number is null. -/
theorem toJson_of_not_finite
    {format : BinaryFormat}
    {word : Nat}
    (range : PositionalRange)
    (notFinite : format.isFinite word = false) :
    format.toJson range word = .null := by
  simp [BinaryFormat.toJson, notFinite]

/-- Null is read as the content of no type but that of the SQL null. -/
theorem ofJsonText?_tagged_null {tag : String} (notNull : tag ≠ "Null") :
    ofJsonText? (tagged tag .null).toText = none := by
  rw [ofJsonText?, Json.ofText?_toText (wellFormed_tagged .null), Option.bind_some,
    ofJson?_tagged]
  unfold ofMember?
  split <;> simp_all [readInteger?]

end Value

/-- A column type is read back. -/
theorem ColumnType.ofJson?_toJson (type : ColumnType) :
    ofJson? type.toJson = some type := by
  cases type <;> simp [toJson, ofJson?, textOfUnits?_unitsOfText] <;> rfl

namespace Column

/-- A column is written by the grammar. -/
theorem wellFormed_toJson (column : Column) : column.toJson.WellFormed := by
  refine .object fun member listed => ?_
  rcases List.mem_pair.mp listed with rfl | rfl
  · exact .text _
  · exact .text _

/-- A column is read back. -/
theorem ofJson?_toJson (column : Column) : ofJson? column.toJson = some column := by
  simp [toJson, ofJson?, ofFields?, Json.namedMembers?, Json.single?,
    Json.contentsOf, textOfUnits?_unitsOfText, ColumnType.ofJson?_toJson]

end Column

namespace Schema

/-- A schema is written by the grammar. -/
theorem wellFormed_toJson (schema : Schema) : schema.toJson.WellFormed := by
  refine .object fun member listed => ?_
  obtain rfl := List.mem_singleton.mp listed
  refine .array fun item listedItem => ?_
  obtain ⟨column, -, rfl⟩ := List.mem_map.mp listedItem
  exact column.wellFormed_toJson

/-- A schema is read back. -/
theorem ofJson?_toJson (schema : Schema) : ofJson? schema.toJson = some schema := by
  simp [toJson, ofJson?, ofColumnsJson?, Json.namedMembers?, Json.single?,
    Json.contentsOf, textOfUnits?_unitsOfText,
    mapM_map_eq_some Column.ofJson?_toJson]

/-- A schema is read back from its text, whatever its columns are called. -/
theorem ofJsonText?_toJsonText (schema : Schema) :
    ofJsonText? schema.toJsonText = some schema := by
  rw [ofJsonText?, toJsonText, Json.ofText?_toText schema.wellFormed_toJson]
  exact schema.ofJson?_toJson

end Schema

/--
Every value that is not floating point and every schema is read back from its text,
so different ones have different texts.  A floating-point value that is no finite
number has a text, which is refused when it is read.
-/
theorem json_round_trip :
    (∀ value : Value, value.isFloating = false →
      Value.ofJsonText? value.toJsonText = some value) ∧
    (∀ schema : Schema, Schema.ofJsonText? schema.toJsonText = some schema) ∧
    (∀ value other : Value, value.isFloating = false → other.isFloating = false →
      value ≠ other → value.toJsonText ≠ other.toJsonText) ∧
    (∀ schema other : Schema,
      schema ≠ other → schema.toJsonText ≠ other.toJsonText) ∧
    (∀ word : UInt32, BinaryFormat.single.isFinite word.toNat = false →
      (Value.float word).toJsonText = r#"{"Float":null}"# ∧
        Value.ofJsonText? (Value.float word).toJsonText = none) ∧
    ∀ word : UInt64, BinaryFormat.double.isFinite word.toNat = false →
      (Value.double word).toJsonText = r#"{"Double":null}"# ∧
        Value.ofJsonText? (Value.double word).toJsonText = none := by
  refine
    ⟨fun _ => Value.ofJsonText?_toJsonText, Schema.ofJsonText?_toJsonText, ?_, ?_,
      ?_, ?_⟩
  · intro value other notFloating otherNotFloating different same
    have back := Value.ofJsonText?_toJsonText notFloating
    rw [same, Value.ofJsonText?_toJsonText otherNotFloating] at back
    exact different (Option.some.inj back).symm
  · intro schema other different same
    have back := schema.ofJsonText?_toJsonText
    rw [same, other.ofJsonText?_toJsonText] at back
    exact different (Option.some.inj back).symm
  · intro word notFinite
    have document : (Value.float word).toJson = Value.tagged "Float" .null :=
      congrArg (Value.tagged "Float") (Value.toJson_of_not_finite _ notFinite)
    rw [Value.toJsonText, document]
    exact ⟨rfl, Value.ofJsonText?_tagged_null (by decide)⟩
  · intro word notFinite
    have document : (Value.double word).toJson = Value.tagged "Double" .null :=
      congrArg (Value.tagged "Double") (Value.toJson_of_not_finite _ notFinite)
    rw [Value.toJsonText, document]
    exact ⟨rfl, Value.ofJsonText?_tagged_null (by decide)⟩

/--
Characters of every kind, numbers of two types, a repeated name, words that are no
numbers.
-/
theorem json_round_trip_sample :
    let text := Value.string "\" \\ \x01 \n \u2028 é"
    let schema : Schema := ⟨[⟨"key", .long⟩, ⟨"key", .bytes⟩]⟩
    Value.ofJsonText? text.toJsonText = some text ∧
      Schema.ofJsonText? schema.toJsonText = some schema ∧
      (Value.int (-5)).toJsonText ≠ (Value.long (-5)).toJsonText ∧
      schema.toJsonText ≠ Schema.empty.toJsonText ∧
      Value.ofJsonText? (Value.float 0x7fc00000).toJsonText = none ∧
      Value.ofJsonText? (Value.double 0xfff0000000000000).toJsonText = none := by
  intro text schema
  obtain ⟨values, schemas, valuesDiffer, schemasDiffer, singles, doubles⟩ :=
    json_round_trip
  exact
    ⟨values _ rfl, schemas _, valuesDiffer _ _ rfl rfl (by decide),
      schemasDiffer _ _ (by decide), (singles _ (by decide)).2,
      (doubles _ (by decide)).2⟩

end StreamJoin
