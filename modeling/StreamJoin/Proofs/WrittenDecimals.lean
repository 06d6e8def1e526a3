import StreamJoin.Proofs.JsonValues
import StreamJoin.Proofs.ShortestDecimals

namespace StreamJoin

/-!
# Decimals as JSON numbers

A decimal is laid out as a JSON number in one of four ways, with its point behind,
before or between its digits or with a power of ten (`Decimal.Layout`).  Whatever
the layout is, the number is well formed, and all its digits taken as a significand,
with the power of ten of the last one, are the decimal again
(`Decimal.Layout.significand_mul`).  Only a whole number that is written with its
point has another significand than the coefficient, since a zero stands behind the
point.

If the significand fits in 64 bits then the reader takes it as it is, and the value
of the number is the significand scaled by the power of ten.
-/

namespace JsonNumber

/-- The digits of a number, the point left out. -/
def significand (number : JsonNumber) : Nat :=
  valueOfDigits (number.whole ++ number.fraction)

/-- The power of ten that belongs to the last digit of a number. -/
def power (number : JsonNumber) : ℤ :=
  (number.exponent.map JsonExponent.value).getD 0 - number.fraction.length

section Value

variable {number : JsonNumber}

/-- A significand that fits is scaled by the power of ten. -/
theorem floating?_of_lt (fits : number.significand < wordBound) :
    number.floating? =
      (scaleSignificand? number.significand number.power).map fun magnitude =>
        .floating (BinaryFormat.double.withSign number.negative magnitude) := by
  have parts :
      number.significand =
        extendByDigits (valueOfDigits number.whole) number.fraction := by
    rw [significand, valueOfDigits, extendByDigits_append]
    rfl
  rw [parts] at fits
  have wholeFits : extendByDigits 0 number.whole < wordBound :=
    (le_extendByDigits _ _).trans_lt fits
  have wholeTaken :
      absorbDigits 0 number.whole = (valueOfDigits number.whole, []) :=
    absorbDigits_of_lt wholeFits
  have power_eq :
      (([] : List Digit).length : ℤ) -
        (number.fraction.length - ([] : List Digit).length : Nat) +
          (number.exponent.map JsonExponent.value).getD 0 =
        number.power := by
    simp only [power, List.length_nil, Nat.sub_zero]
    ring
  simp only [floating?, wholeTaken, absorbDigits_of_lt fits, power_eq, parts]

/-- A number with a short significand is read by scaling it. -/
theorem value?_of_lt
    (notPlain : number.isPlain = false)
    (fits : number.significand < wordBound) :
    number.value? =
      (scaleSignificand? number.significand number.power).map fun magnitude =>
        .floating (BinaryFormat.double.withSign number.negative magnitude) := by
  rw [← floating?_of_lt fits]
  simp [value?, notPlain]

end Value

end JsonNumber

/--
A whole number is the value of an exponent that is written with its sign and its
digits.
-/
theorem JsonExponent.value_decimalDigits (number : ℤ) :
    (JsonExponent.mk (if number < 0 then .minus else .plus)
        (decimalDigits number.natAbs)).value =
      number := by
  simp only [value, valueOfDigits_decimalDigits]
  split
  · rename_i minus
    split at minus
    · omega
    · cases minus
  · rename_i notMinus
    split at notMinus
    · exact absurd rfl notMinus
    · omega

namespace Decimal

variable {decimal : Decimal} {negative : Bool} {range : PositionalRange}

/-- How the digits of a decimal are laid out in a JSON number. -/
inductive Layout (decimal : Decimal) (negative : Bool) (range : PositionalRange) :
    JsonNumber → Prop
  /-- A whole number with a zero behind its point. -/
  | pointBehind
      (zeros : Nat)
      (exponent_eq : decimal.exponent = zeros)
      (bounded : decimal.leadingExponent ≤ range.highest) :
      Layout decimal negative range
        ⟨negative, decimal.digits ++ List.replicate zeros Digit.zero, [Digit.zero],
          none⟩
  /-- A number below one. -/
  | pointBefore
      (places : Nat)
      (exponent_eq : decimal.exponent = -places)
      (somePlaces : 0 < places)
      (few : decimal.digits.length ≤ places) :
      Layout decimal negative range
        ⟨negative, [Digit.zero],
          List.replicate (places - decimal.digits.length) Digit.zero ++
            decimal.digits, none⟩
  /-- A number with digits on both sides of the point. -/
  | pointBetween
      (places : Nat)
      (exponent_eq : decimal.exponent = -places)
      (somePlaces : 0 < places)
      (more : places < decimal.digits.length) :
      Layout decimal negative range
        ⟨negative, decimal.digits.take (decimal.digits.length - places),
          decimal.digits.drop (decimal.digits.length - places), none⟩
  /-- A number with a power of ten. -/
  | powerOfTen :
      Layout decimal negative range
        ⟨negative, decimal.digits.take 1, decimal.digits.drop 1,
          some ⟨if decimal.leadingExponent < 0 then .minus else .plus,
            decimalDigits decimal.leadingExponent.natAbs⟩⟩

/-- A decimal is written in one of the layouts. -/
theorem layout_toJsonNumber
    (decimal : Decimal)
    (negative : Bool)
    (range : PositionalRange) :
    Layout decimal negative range (decimal.toJsonNumber negative range) := by
  have hasDigits : 0 < decimal.digits.length :=
    List.length_pos_iff.mpr (decimalDigits_ne_nil decimal.coefficient)
  simp only [toJsonNumber]
  split
  · rename_i positional
    cases exponent_eq : decimal.exponent with
    | ofNat zeros =>
        simp only [Decimal.positional, exponent_eq]
        exact .pointBehind zeros exponent_eq positional.2
    | negSucc predecessor =>
        have places_eq : decimal.exponent = -((predecessor + 1 : Nat) : ℤ) :=
          exponent_eq
        simp only [Decimal.positional, exponent_eq]
        by_cases few : decimal.digits.length ≤ predecessor + 1
        · rw [if_pos few]
          split
          · rename_i none
            have empty := congrArg (fun parts => parts.2.length) none
            simp only [List.length_append, List.length_replicate,
              List.length_nil] at empty
            omega
          · rename_i laidOut
            obtain ⟨rfl, rfl⟩ := Prod.mk.inj laidOut
            exact .pointBefore _ places_eq (Nat.succ_pos _) few
        · rw [if_neg few, List.splitAt_eq]
          split
          · rename_i none
            have empty := congrArg (fun parts => parts.2.length) none
            simp only [List.length_drop, List.length_nil] at empty
            omega
          · rename_i laidOut
            obtain ⟨rfl, rfl⟩ := Prod.mk.inj laidOut
            exact .pointBetween _ places_eq (Nat.succ_pos _) (Nat.not_le.mp few)
  · exact .powerOfTen

namespace Layout

variable {number : JsonNumber}

/-- Each layout is a number of the grammar. -/
theorem wellFormed
    (layout : Layout decimal negative range number)
    (positive : 0 < decimal.coefficient) :
    number.WellFormed := by
  have notEmpty : decimal.digits ≠ [] := decimalDigits_ne_nil decimal.coefficient
  have hasDigits := List.length_pos_iff.mpr notEmpty
  have noZero : decimal.digits.head? ≠ some Digit.zero :=
    head?_decimalDigits_ne_zero positive
  have taken {count : Nat} (someDigits : 0 < count) :
      WholeDigits (decimal.digits.take count) := by
    obtain ⟨digit, later, digits_eq⟩ := List.exists_cons_of_ne_nil notEmpty
    obtain ⟨count, rfl⟩ := Nat.exists_eq_add_one_of_ne_zero someDigits.ne'
    rw [digits_eq] at noZero ⊢
    exact ⟨nofun, fun isZero => absurd isZero noZero⟩
  cases layout with
  | pointBehind zeros exponent_eq bounded =>
      refine
        ⟨⟨List.append_ne_nil_of_left_ne_nil notEmpty _, fun isZero => ?_⟩, nofun⟩
      rw [List.head?_append_of_ne_nil _ notEmpty] at isZero
      exact absurd isZero noZero
  | pointBefore places exponent_eq somePlaces few =>
      exact ⟨⟨nofun, fun _ => rfl⟩, nofun⟩
  | pointBetween places exponent_eq somePlaces more =>
      exact ⟨taken (by omega), nofun⟩
  | powerOfTen =>
      refine ⟨taken one_pos, ?_⟩
      rintro exponent ⟨⟩
      exact decimalDigits_ne_nil _

/-- Each layout has the sign that was asked for. -/
theorem negative_eq (layout : Layout decimal negative range number) :
    number.negative = negative := by
  cases layout <;> rfl

/-- No layout is a plain whole number. -/
theorem isPlain_eq_false (layout : Layout decimal negative range number) :
    number.isPlain = false := by
  have hasDigits : 0 < decimal.digits.length :=
    List.length_pos_iff.mpr (decimalDigits_ne_nil decimal.coefficient)
  cases layout with
  | pointBehind zeros exponent_eq bounded => rfl
  | pointBefore places exponent_eq somePlaces few =>
      have fraction :
          List.replicate (places - decimal.digits.length) Digit.zero ++
            decimal.digits ≠ [] :=
        List.append_ne_nil_of_right_ne_nil _ (decimalDigits_ne_nil _)
      simp [JsonNumber.isPlain, List.isEmpty_eq_false_iff.mpr fraction]
  | pointBetween places exponent_eq somePlaces more =>
      have fraction :
          decimal.digits.drop (decimal.digits.length - places) ≠ [] := by
        rw [ne_eq, List.drop_eq_nil_iff]
        omega
      simp [JsonNumber.isPlain, List.isEmpty_eq_false_iff.mpr fraction]
  | powerOfTen => simp [JsonNumber.isPlain]

/--
The significand is the coefficient, with the power of ten of the decimal, unless a
zero stands behind the point of a whole number.
-/
theorem significand_power (layout : Layout decimal negative range number) :
    number.significand = decimal.coefficient ∧ number.power = decimal.exponent ∨
      ∃ zeros : Nat,
        decimal.exponent = zeros ∧ decimal.leadingExponent ≤ range.highest ∧
          number.significand = decimal.coefficient * 10 ^ (zeros + 1) ∧
            number.power = -1 := by
  have coefficient : valueOfDigits decimal.digits = decimal.coefficient :=
    valueOfDigits_decimalDigits _
  have hasDigits : 0 < decimal.digits.length :=
    List.length_pos_iff.mpr (decimalDigits_ne_nil decimal.coefficient)
  cases layout with
  | pointBehind zeros exponent_eq bounded =>
      refine .inr ⟨zeros, exponent_eq, bounded, ?_, rfl⟩
      have lastZero : [Digit.zero] = List.replicate 1 Digit.zero := rfl
      rw [JsonNumber.significand, List.append_assoc, lastZero,
        List.replicate_append_replicate, valueOfDigits, extendByDigits_append,
        extendByDigits_zeros]
      exact congrArg (· * 10 ^ (zeros + 1)) coefficient
  | pointBefore places exponent_eq somePlaces few =>
      refine .inl ⟨?_, ?_⟩
      · have firstZero : [Digit.zero] = List.replicate 1 Digit.zero := rfl
        rw [JsonNumber.significand, firstZero, ← List.append_assoc,
          List.replicate_append_replicate, valueOfDigits, extendByDigits_append,
          extendByDigits_zeros, Nat.zero_mul]
        exact coefficient
      · simp only [JsonNumber.power, Option.map_none, Option.getD_none,
          List.length_append, List.length_replicate, exponent_eq]
        omega
  | pointBetween places exponent_eq somePlaces more =>
      refine .inl ⟨?_, ?_⟩
      · rw [JsonNumber.significand, List.take_append_drop]
        exact coefficient
      · simp only [JsonNumber.power, Option.map_none, Option.getD_none,
          List.length_drop, exponent_eq]
        omega
  | powerOfTen =>
      refine .inl ⟨?_, ?_⟩
      · rw [JsonNumber.significand, List.take_append_drop]
        exact coefficient
      · simp only [JsonNumber.power, Option.map_some, Option.getD_some,
          JsonExponent.value_decimalDigits, List.length_drop]
        unfold leadingExponent
        omega

/-- The significand and its power of ten are the decimal, whatever the layout is. -/
theorem significand_mul (layout : Layout decimal negative range number) :
    (number.significand : ℚ) * 10 ^ number.power = decimal.number := by
  rcases layout.significand_power with
    ⟨significand_eq, power_eq⟩ | ⟨zeros, exponent_eq, -, significand_eq, power_eq⟩
  · rw [significand_eq, power_eq, Decimal.number]
  · rw [significand_eq, power_eq, Decimal.number, exponent_eq, zpow_natCast]
    push_cast
    rw [pow_succ, zpow_neg_one]
    field_simp

/-- A positional whole number is not so long that its significand does not fit. -/
theorem significand_lt
    {count : Nat}
    (layout : Layout decimal negative range number)
    (short : decimal.coefficient < 10 ^ count)
    (positional : range.highest + 2 ≤ count) :
    number.significand < 10 ^ count := by
  rcases layout.significand_power with
    ⟨significand_eq, -⟩ | ⟨zeros, exponent_eq, bounded, significand_eq, -⟩
  · rw [significand_eq]
    exact short
  · rw [significand_eq]
    have digits : decimal.coefficient < 10 ^ decimal.digits.length :=
      lt_pow_length_decimalDigits _
    calc
      decimal.coefficient * 10 ^ (zeros + 1) <
        10 ^ decimal.digits.length * 10 ^ (zeros + 1) :=
        Nat.mul_lt_mul_of_pos_right digits (Nat.pow_pos (Nat.succ_pos 9))
      _ = 10 ^ (decimal.digits.length + (zeros + 1)) := (pow_add _ _ _).symm
      _ ≤ 10 ^ count := by
        apply Nat.pow_le_pow_right (by decide)
        unfold leadingExponent at bounded
        omega

end Layout

/--
A decimal that is short enough is read by scaling the significand that is written
for it.
-/
theorem value?_toJsonNumber
    {count : Nat}
    (short : decimal.coefficient < 10 ^ count)
    (positional : range.highest + 2 ≤ count)
    (fits : 10 ^ count ≤ wordBound) :
    (decimal.toJsonNumber negative range).value? =
      (scaleSignificand? (decimal.toJsonNumber negative range).significand
          (decimal.toJsonNumber negative range).power).map fun magnitude =>
        .floating (BinaryFormat.double.withSign negative magnitude) := by
  have layout := layout_toJsonNumber decimal negative range
  have within := (layout.significand_lt short positional).trans_le fits
  rw [JsonNumber.value?_of_lt layout.isPlain_eq_false within, layout.negative_eq]

end Decimal

end StreamJoin
