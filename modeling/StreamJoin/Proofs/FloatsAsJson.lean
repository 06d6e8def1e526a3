import StreamJoin.Proofs.DoubleReadings
import StreamJoin.Proofs.SingleReadings

namespace StreamJoin

/-!
# Floating-point values as JSON

A finite floating-point value is written with the shortest decimal that rounds to
its word, and its sign (`BinaryFormat.Written`).  The reader scales the decimal as a
64-bit number.  That is precise enough for every 32-bit value to be read back.  A
64-bit value is read as a value of the same sign at most three words away, and as
itself exactly if scaling gives its magnitude, which is sure only if nothing is
rounded before it (`floats_through_json`).  Some 64-bit values do change
(`double_changed_by_json`).
-/

open BinaryFormat (single double)

/-- A zero with a zero behind its point. -/
def JsonNumber.signedZero (negative : Bool) : JsonNumber :=
  ⟨negative, [Digit.zero], [Digit.zero], none⟩

namespace BinaryFormat

section Written

variable {format : BinaryFormat} {range : PositionalRange} {word : Nat}
  {number : JsonNumber}

/-- The magnitude of a word under its sign is the word. -/
theorem withSign_magnitude (bounded : word < 2 * format.signBit) :
    format.withSign (format.isNegative word) (format.magnitude word) = word := by
  unfold withSign isNegative magnitude
  by_cases negative : format.signBit ≤ word
  · rw [if_pos (decide_eq_true negative), Nat.mod_eq_sub_mod negative,
      Nat.mod_eq_of_lt (by omega)]
    omega
  · rw [decide_eq_false negative, if_neg Bool.false_ne_true]
    exact Nat.mod_eq_of_lt (Nat.not_le.mp negative)

/-- A number is the one that is written for a finite word. -/
inductive Written (format : BinaryFormat) (range : PositionalRange) (word : Nat) :
    JsonNumber → Prop
  | zero (isZero : format.magnitude word = 0) :
      Written format range word (.signedZero (format.isNegative word))
  | decimal (positive : 0 < format.magnitude word) :
      Written format range word
        ((format.shortestDecimal .even (format.magnitude word)).toJsonNumber
          (format.isNegative word) range)

/-- A finite float is written as a number in one of the layouts. -/
theorem exists_written
    (range : PositionalRange)
    (finite : format.isFinite word = true) :
    ∃ number,
      format.toJson range word = .number number ∧
        Written format range word number := by
  by_cases isZero : format.magnitude word = 0
  · refine ⟨_, ?_, .zero isZero⟩
    simp [toJson, finite, isZero, JsonNumber.signedZero]
  · refine ⟨_, ?_, .decimal (Nat.pos_of_ne_zero isZero)⟩
    simp [toJson, finite, isZero]

namespace Written

/-- What is written is a number of the grammar. -/
theorem wellFormed
    (written : Written format range word number)
    (enough : format.EnoughDigits) :
    number.WellFormed := by
  cases written with
  | zero isZero => exact ⟨⟨nofun, fun _ => rfl⟩, nofun⟩
  | decimal positive =>
      exact (Decimal.layout_toJsonNumber _ _ range).wellFormed
        (fits_shortestDecimal .even positive enough).1.positive

/-- The number that is written for a 32-bit word is read as the word. -/
theorem value?_toSingle
    (written : Written single singlePositional word number)
    (finite : single.isFinite word = true)
    (bounded : word < 2 * single.signBit) :
    number.value?.map NumberValue.toSingle = some word := by
  have whole := withSign_magnitude bounded
  cases written with
  | zero isZero =>
      have zeros :
          ∀ negative : Bool,
            (JsonNumber.signedZero negative).value?.map NumberValue.toSingle =
              some (single.withSign negative 0) := by
        decide +kernel
      rw [zeros, ← isZero, whole]
  | decimal positive =>
      rw [toSingle_shortestDecimal _ positive (of_decide_eq_true finite), whole]

/--
The number that is written for a 64-bit word is read as a word nearby under the same
sign.
-/
theorem exists_readsAs
    (written : Written double doublePositional word number)
    (finite : double.isFinite word = true) :
    ∃ read,
      number.value? =
          some (.floating (double.withSign (double.isNegative word) read)) ∧
        ReadsAs (double.magnitude word) read number := by
  cases written with
  | zero isZero =>
      have zeros :
          ∀ negative : Bool,
            (JsonNumber.signedZero negative).value? =
                some (.floating (double.withSign negative 0)) ∧
              scaleSignificand? (JsonNumber.signedZero negative).significand
                  (JsonNumber.signedZero negative).power =
                some 0 := by
        decide +kernel
      obtain ⟨value, scaled⟩ := zeros (double.isNegative word)
      refine ⟨0, value, scaled, by decide, ?_, fun _ _ => isZero.symm⟩
      rw [isZero]
      decide
  | decimal positive =>
      obtain ⟨read, reads⟩ :=
        StreamJoin.exists_readsAs (double.isNegative word) positive
          (of_decide_eq_true finite)
      have short := (fits_shortestDecimal .even positive enoughDigits_double).2
      refine ⟨read, ?_, reads⟩
      rw [Decimal.value?_toJsonNumber short (by decide) (by decide), reads.scaled,
        Option.map_some]

end Written

end Written

end BinaryFormat

namespace Value

/-- Whether a value is a finite floating-point number. -/
def isFiniteFloating : Value → Bool
  | .float word => BinaryFormat.single.isFinite word.toNat
  | .double word => BinaryFormat.double.isFinite word.toNat
  | _ => false

/--
A 32-bit value is what it was, and a 64-bit value is finite, under its sign and not
far away.
-/
inductive StaysNear : Value → Value → Prop
  | float (word : UInt32) : StaysNear (.float word) (.float word)
  | double {word back : UInt64}
      (finite : BinaryFormat.double.isFinite back.toNat = true)
      (sign :
        BinaryFormat.double.isNegative back.toNat =
          BinaryFormat.double.isNegative word.toNat)
      (near :
        (BinaryFormat.double.magnitude back.toNat).dist
            (BinaryFormat.double.magnitude word.toNat) ≤
          3) :
      StaysNear (.double word) (.double back)

/--
The decimal that is written for a 64-bit value is scaled to its magnitude again.
-/
def ScaledBack : Value → Prop
  | .double word =>
      ∀ number,
          BinaryFormat.double.toJson doublePositional word.toNat = .number number →
        scaleSignificand? number.significand number.power =
          some (BinaryFormat.double.magnitude word.toNat)
  | _ => True

/--
Neither the digits that are written for a 64-bit value nor their power of ten are
rounded.
-/
def ScaledExactly : Value → Prop
  | .double word =>
      ∀ number,
          BinaryFormat.double.toJson doublePositional word.toNat = .number number →
        number.significand ≤ 2 ^ 53 ∧ number.power.natAbs ≤ 22
  | _ => True

end Value

/-- A finite 32-bit value is read back from its text. -/
theorem ofJsonText?_toJsonText_float
    {word : UInt32}
    (finite : single.isFinite word.toNat = true) :
    Value.ofJsonText? (Value.float word).toJsonText = some (.float word) := by
  obtain ⟨number, document, written⟩ :=
    BinaryFormat.exists_written singlePositional finite
  have wellFormed := written.wellFormed BinaryFormat.enoughDigits_single
  have value := written.value?_toSingle finite word.toNat_lt
  rw [Option.map_eq_some_iff] at value
  obtain ⟨read, isRead, read_eq⟩ := value
  rw [Value.ofJsonText?, Value.toJsonText, Value.toJson, document,
    Json.ofText?_toText (Value.wellFormed_tagged (.number wellFormed)),
    Option.bind_some, Value.ofJson?_tagged]
  simp only [Value.ofMember?, isRead, Option.map_some, read_eq, UInt32.ofNat_toNat]

section Double

variable {word : UInt64} {read : Nat}

/-- A word with a sign is kept when it is put into 64 bits. -/
theorem toNat_ofNat_withSign {negative : Bool} (below : read < double.signBit) :
    (UInt64.ofNat (double.withSign negative read)).toNat =
      double.withSign negative read := by
  have signed : double.withSign negative read < 2 * double.signBit := by
    unfold BinaryFormat.withSign
    split <;> omega
  exact UInt64.toNat_ofNat_of_lt signed

/-- Under the sign of a word, only the magnitude of the word is the word. -/
theorem ofNat_withSign_eq_iff (below : read < double.signBit) :
    UInt64.ofNat (double.withSign (double.isNegative word.toNat) read) = word ↔
      read = double.magnitude word.toNat := by
  constructor
  · intro same
    rw [← same, toNat_ofNat_withSign below, BinaryFormat.magnitude_withSign _ below]
  · rintro rfl
    rw [BinaryFormat.withSign_magnitude word.toNat_lt, UInt64.ofNat_toNat]

/-- A finite 64-bit value is read from its text as a word nearby under its sign. -/
theorem exists_ofJsonText?_toJsonText_double
    (finite : double.isFinite word.toNat = true) :
    ∃ number read,
      double.toJson doublePositional word.toNat = .number number ∧
        ReadsAs (double.magnitude word.toNat) read number ∧
        Value.ofJsonText? (Value.double word).toJsonText =
          some (.double
            (UInt64.ofNat
              (double.withSign (double.isNegative word.toNat) read))) := by
  obtain ⟨number, document, written⟩ :=
    BinaryFormat.exists_written doublePositional finite
  have wellFormed := written.wellFormed BinaryFormat.enoughDigits_double
  obtain ⟨read, value, reads⟩ := written.exists_readsAs finite
  refine ⟨number, read, document, reads, ?_⟩
  rw [Value.ofJsonText?, Value.toJsonText, Value.toJson, document,
    Json.ofText?_toText (Value.wellFormed_tagged (.number wellFormed)),
    Option.bind_some, Value.ofJson?_tagged]
  simp only [Value.ofMember?, value, Option.map_some, NumberValue.toDouble]

end Double

/--
A finite floating-point value is always read from its text, a 32-bit value as itself
and a 64-bit value as one with the same sign and at most three words away.  It is
read as itself exactly if its decimal is scaled to its magnitude again, and that is
so if nothing is rounded before the scaling.
-/
theorem floats_through_json
    (value : Value)
    (finite : value.isFiniteFloating = true) :
    (∃ back,
      Value.ofJsonText? value.toJsonText = some back ∧ value.StaysNear back) ∧
    (Value.ofJsonText? value.toJsonText = some value ↔ value.ScaledBack) ∧
    (value.ScaledExactly → value.ScaledBack) := by
  cases value with
  | float word =>
      have kept := ofJsonText?_toJsonText_float finite
      exact ⟨⟨_, kept, .float word⟩, iff_of_true kept trivial, id⟩
  | double word =>
      obtain ⟨number, read, document, reads, text⟩ :=
        exists_ofJsonText?_toJsonText_double finite
      have bound : double.infinityWord ≤ double.signBit := by decide
      have below : read < double.signBit := reads.finite.trans_le bound
      have onlyNumber {other : JsonNumber}
          (otherDocument :
            double.toJson doublePositional word.toNat = .number other) :
          number = other :=
        Json.number.inj (document.symm.trans otherDocument)
      refine ⟨⟨_, text, .double ?_ ?_ ?_⟩, ?_, ?_⟩
      · rw [toNat_ofNat_withSign below, BinaryFormat.isFinite,
          BinaryFormat.magnitude_withSign _ below]
        exact decide_eq_true reads.finite
      · rw [toNat_ofNat_withSign below, BinaryFormat.isNegative_withSign _ below]
      · rw [toNat_ofNat_withSign below, BinaryFormat.magnitude_withSign _ below]
        exact reads.near
      · rw [text, Option.some_inj, Value.double.injEq, ofNat_withSign_eq_iff below]
        constructor
        · intro same other otherDocument
          rw [← onlyNumber otherDocument, reads.scaled, same]
        · intro scaledBack
          exact
            Option.some.inj (reads.scaled.symm.trans (scaledBack number document))
      · intro exact other otherDocument
        obtain ⟨small, within⟩ := exact number document
        rw [← onlyNumber otherDocument, reads.scaled, reads.exact small within]
  | _ => cases finite

/--
The smallest negative 32-bit number, and a 64-bit number whose decimal is scaled
exactly.
-/
theorem floats_through_json_sample :
    Value.ofJsonText? (Value.float 0x80000001).toJsonText =
        some (.float 0x80000001) ∧
      Value.ofJsonText? (Value.double 0x3fb999999999999a).toJsonText =
        some (.double 0x3fb999999999999a) := by
  have tenth :
      double.toJson doublePositional (0x3fb999999999999a : UInt64).toNat =
        .number ⟨false, [Digit.zero], [⟨1, by decide⟩], none⟩ := by
    rw [BinaryFormat.toJson, if_neg (by decide), if_neg (by decide)]
    exact congrArg Json.number (by decide +kernel)
  obtain ⟨-, keptIff, scaled⟩ :=
    floats_through_json (.double 0x3fb999999999999a) (by decide)
  refine
    ⟨(floats_through_json (.float 0x80000001) (by decide)).2.1.mpr trivial,
      keptIff.mpr ?_⟩
  refine scaled fun number document => ?_
  obtain rfl := Json.number.inj (tenth.symm.trans document)
  exact ⟨by decide +kernel, by decide +kernel⟩

/--
A 64-bit value is written with its shortest decimal, which is read as the next
value.
-/
theorem double_changed_by_json :
    double.isFinite (0x3b282db34012b251 : UInt64).toNat = true ∧
      (Value.double 0x3b282db34012b251).toJsonText = r#"{"Double":1e-23}"# ∧
      Value.ofJsonText? (Value.double 0x3b282db34012b251).toJsonText =
        some (.double 0x3b282db34012b252) ∧
      Value.double 0x3b282db34012b252 ≠ Value.double 0x3b282db34012b251 := by
  decide +kernel

end StreamJoin
