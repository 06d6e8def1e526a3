import StreamJoin.Proofs.ExactNumbers
import StreamJoin.Proofs.NearestWord

namespace StreamJoin

/-!
# Rounding and order

As soon as one side of a comparison is floating point, both sides are taken as
64-bit words.  That is one function on what numbers denote, `Extended.nearest`: it
rounds a number of units to the nearest one that a 64-bit word has
(`Value.asDouble?_eq_map`).  Only long numbers are changed by it, and no long number
of at most 53 bits is.

Rounding never reverses an order (`Extended.order_nearest`).  It may make unequal
numbers equal.
-/

namespace BinaryFormat

variable (format : BinaryFormat)

/-- The number of units that a word has which is nearest to a number of units. -/
def nearestUnits (units : Int) : Int :=
  let magnitude : Int := format.units (format.roundUnits units.natAbs 1)
  if units < 0 then -magnitude else magnitude

/-- The nearest units grow with the number. -/
theorem nearestUnits_mono {left right : Int} (le : left ≤ right) :
    format.nearestUnits left ≤ format.nearestUnits right := by
  have magnitudes {less more : Nat} (ordered : less ≤ more) :
      format.units (format.roundUnits less 1) ≤
        format.units (format.roundUnits more 1) :=
    format.strictMono_units.monotone (format.roundUnits_mono Nat.one_pos ordered)
  simp only [nearestUnits]
  split
  · split
    · have reversed : right.natAbs ≤ left.natAbs := by omega
      have := magnitudes reversed
      omega
    · omega
  · have rightSign : ¬ right < 0 := by omega
    have kept : left.natAbs ≤ right.natAbs := by omega
    have := magnitudes kept
    rw [if_neg rightSign]
    omega

/-- A number of units stays as it is when its magnitude does. -/
theorem nearestUnits_eq
    {units : Int}
    (fixed : format.units (format.roundUnits units.natAbs 1) = units.natAbs) :
    format.nearestUnits units = units := by
  simp only [nearestUnits, fixed]
  split <;> omega

/-- A number of at most so many steps of a binade does not overflow. -/
theorem roundUnits_lt_infinityWord
    {units level : Nat}
    (low : level + 2 < 2 ^ format.exponentBits - 1)
    (within : units ≤ 2 * format.hiddenBit * 2 ^ level) :
    format.roundUnits units 1 < format.infinityWord := by
  have place :
      format.units (level * format.hiddenBit + 2 * format.hiddenBit) =
        2 * format.hiddenBit * 2 ^ level :=
    format.units_place (.inr (Nat.le_mul_of_pos_left _ two_pos)) (Nat.le_refl _)
  have finite :
      level * format.hiddenBit + 2 * format.hiddenBit < format.infinityWord := by
    rw [← Nat.add_mul]
    exact Nat.mul_lt_mul_of_pos_right low format.hiddenBit_pos
  exact (format.roundUnits_le finite.le (place ▸ within)).trans_lt finite

/--
A number of steps with no more bits than a fraction with its hidden bit is a word's.
-/
theorem units_roundUnits_of_steps
    {count level : Nat}
    (low : level + 2 < 2 ^ format.exponentBits - 1)
    (within : count ≤ 2 * format.hiddenBit) :
    format.units (format.roundUnits (count * 2 ^ level) 1) = count * 2 ^ level := by
  apply format.units_roundUnits_of_dvd
  · exact format.roundUnits_lt_infinityWord low (Nat.mul_le_mul_right _ within)
  · rcases Nat.eq_or_lt_of_le within with rfl | less
    · -- The bound itself is the first number of the next binade.
      have next :
          2 * format.hiddenBit * 2 ^ level =
            format.hiddenBit * 2 ^ (level + 1) := by
        ring
      have bound :
          format.doublings (format.hiddenBit * 2 ^ (level + 1)) = level + 1 :=
        format.doublings_place (.inr (Nat.le_refl _))
          (by have := format.hiddenBit_pos; omega)
      rw [next, bound]
      exact Nat.dvd_mul_left _ _
    · have binade := format.doublings_le
        (Nat.mul_lt_mul_of_pos_right less (Nat.two_pow_pos level))
      exact (Nat.pow_dvd_pow 2 binade).trans (Nat.dvd_mul_left _ _)

/-- A whole number with not too many bits does not overflow. -/
theorem roundUnits_whole_lt_infinityWord
    {number bits : Nat}
    (low : format.unitExponent + bits + 2 < 2 ^ format.exponentBits - 1)
    (within : number ≤ 2 * format.hiddenBit * 2 ^ bits) :
    format.roundUnits (number * format.unitsPerOne) 1 < format.infinityWord := by
  apply format.roundUnits_lt_infinityWord low
  calc
    number * format.unitsPerOne ≤
      2 * format.hiddenBit * 2 ^ bits * format.unitsPerOne :=
      Nat.mul_le_mul_right _ within
    _ = 2 * format.hiddenBit * 2 ^ (format.unitExponent + bits) := by
      rw [unitsPerOne_eq, Nat.pow_add]
      ring

section Sign

variable {negative : Bool} {magnitude : Nat}

/-- A word has the sign that it was given. -/
theorem isNegative_withSign (below : magnitude < format.signBit) :
    format.isNegative (format.withSign negative magnitude) = negative := by
  cases negative with
  | true => exact decide_eq_true (Nat.le_add_right _ _)
  | false => exact decide_eq_false (Nat.not_le.mpr below)

/-- A word has the magnitude that it was given. -/
theorem magnitude_withSign (below : magnitude < format.signBit) :
    format.magnitude (format.withSign negative magnitude) = magnitude := by
  cases negative with
  | true => exact (Nat.add_mod_left _ _).trans (Nat.mod_eq_of_lt below)
  | false => exact Nat.mod_eq_of_lt below

end Sign

end BinaryFormat

namespace Extended

/--
What the nearest 64-bit word denotes; infinities and words that are no numbers stay.
-/
def nearest : Extended → Extended
  | .finite units => .finite (BinaryFormat.double.nearestUnits units)
  | other => other

/-- Rounding keeps an order or makes the two numbers equal. -/
theorem order_nearest
    {left right : Extended}
    {found : Ordering}
    (ordered : left.order right = some found) :
    left.nearest.order right.nearest = some found ∨
      left.nearest.order right.nearest = some .eq := by
  cases left <;> cases right
  case finite.finite left right =>
    have compared : compare left right = found := Option.some.inj ordered
    simp only [nearest, order, Option.some.injEq]
    rcases lt_trichotomy left right with less | rfl | more
    · rw [compare_lt_iff_lt.mpr less] at compared
      have upward := BinaryFormat.double.nearestUnits_mono less.le
      rw [← compared, compare_lt_iff_lt, compare_eq_iff_eq]
      exact upward.lt_or_eq
    · exact .inr (compare_eq_iff_eq.mpr rfl)
    · rw [compare_gt_iff_gt.mpr more] at compared
      have downward := BinaryFormat.double.nearestUnits_mono more.le
      rw [← compared, compare_gt_iff_gt, compare_eq_iff_eq]
      exact downward.lt_or_eq.imp id Eq.symm
  all_goals exact .inl ordered

/-- A 64-bit word under a sign denotes its units under that sign. -/
theorem ofWord_withSign
    {negative : Bool}
    {magnitude : Nat}
    (finite : magnitude < BinaryFormat.double.infinityWord) :
    ofWord .double (BinaryFormat.double.withSign negative magnitude) =
      .finite
        (if negative then -(BinaryFormat.double.units magnitude : Int)
          else BinaryFormat.double.units magnitude) := by
  have bound : BinaryFormat.double.infinityWord ≤ BinaryFormat.double.signBit := by
    decide
  have below : magnitude < BinaryFormat.double.signBit := by omega
  have isNumber : ¬ BinaryFormat.double.infinityWord < magnitude := by omega
  have isFinite : magnitude ≠ BinaryFormat.double.infinityWord := by omega
  simp [ofWord, BinaryFormat.isNaN, BinaryFormat.isInfinite, isNumber, isFinite,
    BinaryFormat.magnitude_withSign _ below,
    BinaryFormat.isNegative_withSign _ below]

/--
A word whose units, in those of the 64-bit format, are a word's denotes its nearest
number.
-/
theorem nearest_ofWord
    {format : BinaryFormat}
    {scale : Nat}
    (scaled : scale = BinaryFormat.double.unitExponent - format.unitExponent)
    (fixed :
      ∀ magnitude < format.infinityWord,
        BinaryFormat.double.units
            (BinaryFormat.double.roundUnits (format.units magnitude * 2 ^ scale)
              1) =
          format.units magnitude * 2 ^ scale)
    (word : Nat) :
    (ofWord format word).nearest = ofWord format word := by
  subst scaled
  unfold ofWord
  split
  · rfl
  · split
    · split <;> rfl
    · rename_i isNumber isFinite
      have below : format.magnitude word < format.infinityWord := by
        simp only [BinaryFormat.isNaN, BinaryFormat.isInfinite, decide_eq_true_eq]
          at isNumber isFinite
        omega
      refine congrArg Extended.finite (BinaryFormat.nearestUnits_eq _ ?_)
      split
      · rw [Int.natAbs_neg, Int.natAbs_natCast]
        exact fixed _ below
      · exact fixed _ below

/-- A double is the nearest double to itself. -/
theorem nearest_ofWord_double (word : Nat) :
    (ofWord .double word).nearest = ofWord .double word := by
  apply nearest_ofWord rfl
  intro magnitude below
  rw [Nat.sub_self, Nat.pow_zero, Nat.mul_one,
    BinaryFormat.roundUnits_units _ below.le]

/-- A single is the nearest double to itself. -/
theorem nearest_ofWord_single (word : Nat) :
    (ofWord .single word).nearest = ofWord .single word := by
  apply nearest_ofWord rfl
  intro magnitude below
  obtain ⟨level, count, rfl, normal, within⟩ :=
    BinaryFormat.single.exists_place magnitude
  have hiddenBit_eq : BinaryFormat.single.hiddenBit = 2 ^ 23 := rfl
  have infinityWord_eq : BinaryFormat.single.infinityWord = 255 * 2 ^ 23 := rfl
  rw [hiddenBit_eq] at normal within below
  rw [infinityWord_eq] at below
  rw [BinaryFormat.single.units_place normal within.le, Nat.mul_assoc,
    ← Nat.pow_add]
  apply BinaryFormat.double.units_roundUnits_of_steps
  · have scale_eq :
        BinaryFormat.double.unitExponent - BinaryFormat.single.unitExponent =
          925 := rfl
    have exponents : 2 ^ BinaryFormat.double.exponentBits = 2048 := rfl
    omega
  · have wideHiddenBit_eq : BinaryFormat.double.hiddenBit = 2 ^ 52 := rfl
    omega

/-- A whole number of at most 53 bits is its own nearest number. -/
theorem nearest_ofInt
    {value : Int}
    (small : value.natAbs ≤ 2 ^ 53) :
    (ofInt value).nearest = ofInt value := by
  refine congrArg Extended.finite (BinaryFormat.nearestUnits_eq _ ?_)
  rw [Int.natAbs_mul, Int.natAbs_natCast, BinaryFormat.unitsPerOne_eq]
  apply BinaryFormat.double.units_roundUnits_of_steps
  · decide
  · exact small

/-- A whole number of 64 bits is rounded to the word that is nearest to it. -/
theorem ofWord_ofInt
    {value : Int}
    (small : value.natAbs ≤ 2 ^ 63) :
    ofWord .double (BinaryFormat.double.ofInt value) = (ofInt value).nearest := by
  have one_pos : 0 < (BinaryFormat.double.unitsPerOne : Int) :=
    Int.natCast_pos.mpr BinaryFormat.double.unitsPerOne_pos
  have negative_iff : value * BinaryFormat.double.unitsPerOne < 0 ↔ value < 0 :=
    ⟨fun below => neg_of_mul_neg_left below one_pos.le,
      fun below => Int.mul_neg_of_neg_of_pos below one_pos⟩
  have finite :
      BinaryFormat.double.roundUnits
          (value.natAbs * BinaryFormat.double.unitsPerOne) 1 <
        BinaryFormat.double.infinityWord := by
    have low :
        BinaryFormat.double.unitExponent + 10 + 2 <
          2 ^ BinaryFormat.double.exponentBits - 1 := by
      decide
    exact BinaryFormat.double.roundUnits_whole_lt_infinityWord low small
  simp only [BinaryFormat.ofInt, BinaryFormat.roundRatio, ofWord_withSign finite,
    ofInt, nearest, BinaryFormat.nearestUnits, Int.natAbs_mul, Int.natAbs_natCast,
    negative_iff, decide_eq_true_eq]

end Extended

namespace Value

/-- Numbers are taken as 64-bit words by rounding what they denote. -/
theorem asDouble?_eq_map (value : Value) :
    value.asDouble? = value.denoted?.map Extended.nearest := by
  cases value with
  | int number =>
      have small : number.toInt.natAbs ≤ 2 ^ 53 := by
        have := number.le_toInt
        have := number.toInt_lt
        omega
      exact congrArg some (Extended.nearest_ofInt small).symm
  | long number =>
      have small : number.toInt.natAbs ≤ 2 ^ 63 := by
        have := number.le_toInt
        have := number.toInt_lt
        omega
      exact congrArg some (Extended.ofWord_ofInt small)
  | float word =>
      exact congrArg some (Extended.nearest_ofWord_single word.toNat).symm
  | double word =>
      exact congrArg some (Extended.nearest_ofWord_double word.toNat).symm
  | _ => rfl

end Value

end StreamJoin
