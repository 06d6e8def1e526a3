import Mathlib.Tactic.FieldSimp
import Mathlib.Tactic.Linarith
import Mathlib.Tactic.Positivity
import StreamJoin.Proofs.RoundedNumbers

namespace StreamJoin

/-!
# Rounding of rational numbers

Every operation on words rounds one rational number to a word, and `RoundsTo` says
so without the quotient of units that it is given as.  Rounding keeps the order to
the numbers of words (`RoundsTo.le`, `RoundsTo.ge`) and is off by at most half a
step (`RoundsTo.error_le`).  A number between the midpoints around a word, where the
midpoints count if the word is even, is rounded to the word
(`RoundsTo.eq_of_between`).
-/

section CommonDenominator

variable {left right scale : ℚ} {leftCount rightCount : Nat}

/-- Numbers that become whole on the same scale are compared as whole numbers. -/
theorem lt_iff_of_mul_eq
    (positive : 0 < scale)
    (leftScaled : left * scale = leftCount)
    (rightScaled : right * scale = rightCount) :
    left < right ↔ leftCount < rightCount := by
  rw [← mul_lt_mul_iff_of_pos_right positive, leftScaled, rightScaled, Nat.cast_lt]

/-- Two rational numbers are equal exactly if they are in whole units. -/
theorem eq_iff_of_mul_eq
    (positive : 0 < scale)
    (leftScaled : left * scale = leftCount)
    (rightScaled : right * scale = rightCount) :
    left = right ↔ leftCount = rightCount := by
  rw [← mul_left_inj' positive.ne', leftScaled, rightScaled, Nat.cast_inj]

end CommonDenominator

/-- A common factor does not change the nearest quotient. -/
theorem divNearestEven_mul_right
    {factor : Nat}
    (numerator denominator : Nat)
    (positive : 0 < factor) :
    divNearestEven (numerator * factor) (denominator * factor) =
      divNearestEven numerator denominator := by
  have twice :
      2 * (numerator % denominator * factor) =
        2 * (numerator % denominator) * factor :=
    (Nat.mul_assoc 2 _ factor).symm
  simp only [divNearestEven, Nat.mul_div_mul_right _ _ positive,
    Nat.mul_mod_mul_right, twice, Nat.mul_lt_mul_right positive]

/-- The nearest multiple of a number is at most half of it away. -/
theorem two_mul_dist_divNearestEven_le
    {denominator : Nat}
    (numerator : Nat)
    (positive : 0 < denominator) :
    2 * numerator.dist (divNearestEven numerator denominator * denominator) ≤
      denominator := by
  have shape := Nat.div_add_mod' numerator denominator
  have next := Nat.add_one_mul (numerator / denominator) denominator
  have remainder := Nat.mod_lt numerator positive
  simp only [divNearestEven, Nat.dist]
  split
  · omega
  · split
    · omega
    · rcases Nat.mod_two_eq_zero_or_one (numerator / denominator) with even | odd
      · rw [even, Nat.add_zero]
        omega
      · rw [odd]
        omega

namespace BinaryFormat

variable (format : BinaryFormat)

/--
A whole number of units is rounded as it is, whatever quotient it is written as.
-/
theorem roundUnits_mul
    {denominator : Nat}
    (units : Nat)
    (positive : 0 < denominator) :
    format.roundUnits (units * denominator) denominator =
      format.roundUnits units 1 := by
  simp only [roundUnits_eq, nearestSteps, Nat.mul_div_cancel units positive,
    Nat.div_one, Nat.mul_comm denominator, Nat.one_mul,
    divNearestEven_mul_right _ _ positive]

/-- Steps never become smaller from a word to the next. -/
theorem step_le_next (word : Nat) :
    2 * format.units (word + 1) ≤ format.units word + format.units (word + 2) := by
  obtain ⟨level, count, rfl, normal, within⟩ := format.exists_place word
  have nextNormal : level = 0 ∨ format.hiddenBit ≤ count + 1 :=
    normal.imp id Nat.le_succ_of_le
  have positive := format.hiddenBit_pos
  rw [format.units_place normal within.le, Nat.add_assoc, Nat.add_assoc,
    format.units_place nextNormal within]
  rcases Nat.lt_or_ge (count + 1) (2 * format.hiddenBit) with inside | last
  · have laterNormal : level = 0 ∨ format.hiddenBit ≤ count + 2 :=
      normal.imp id fun reached => by omega
    rw [format.units_place laterNormal inside]
    exact (by ring : 2 * ((count + 1) * 2 ^ level) = _).le
  · -- The step after the last word of a binade is twice as large.
    have full : count + 1 = 2 * format.hiddenBit := by omega
    have shape :
        level * format.hiddenBit + (count + 2) =
          (level + 1) * format.hiddenBit + (format.hiddenBit + 1) := by
      linarith
    have higher : level + 1 = 0 ∨ format.hiddenBit ≤ format.hiddenBit + 1 :=
      .inr (Nat.le_succ _)
    rw [shape, format.units_place higher (by omega), pow_succ]
    nlinarith [Nat.two_pow_pos level]

/-- So many words on, a number has grown by at least as many steps. -/
theorem units_add_mul_le (word more : Nat) :
    format.units word + more * (format.units (word + 1) - format.units word) ≤
      format.units (word + more) := by
  have stepsGrow (more : Nat) :
      format.units (word + 1) - format.units word ≤
        format.units (word + more + 1) - format.units (word + more) := by
    induction more with
    | zero => exact Nat.le_refl _
    | succ more inductionHypothesis =>
        have next :
            2 * format.units (word + more + 1) ≤
              format.units (word + more) + format.units (word + more + 1 + 1) :=
          format.step_le_next (word + more)
        rw [← Nat.add_assoc]
        omega
  induction more with
  | zero => simp
  | succ more inductionHypothesis =>
      have grown := stepsGrow more
      have next : format.units (word + more) < format.units (word + (more + 1)) :=
        format.units_succ (word + more)
      rw [Nat.add_assoc word more 1] at grown
      rw [Nat.add_one_mul]
      omega

/-- The number that a finite magnitude word denotes. -/
def number (word : Nat) : ℚ := format.units word / format.unitsPerOne

/-- As a rational number, the count of units in one is positive. -/
theorem unitsPerOne_cast_pos : (0 : ℚ) < format.unitsPerOne :=
  Nat.cast_pos.mpr format.unitsPerOne_pos

/-- The hidden bit is at most the count of units in one. -/
theorem hiddenBit_le_unitsPerOne : format.hiddenBit ≤ format.unitsPerOne :=
  Nat.pow_le_pow_right two_pos (Nat.le_add_left _ _)

/-- In units, a word stands for a whole number. -/
theorem number_mul_unitsPerOne (word : Nat) :
    format.number word * format.unitsPerOne = format.units word :=
  div_mul_cancel₀ _ format.unitsPerOne_ne_zero

/-- Higher words stand for higher numbers. -/
theorem strictMono_number : StrictMono format.number := fun _ _ less =>
  div_lt_div_of_pos_right (Nat.cast_lt.mpr (format.strictMono_units less))
    format.unitsPerOne_cast_pos

/-- The number halfway between a word and the next one. -/
def midpoint (word : Nat) : ℚ := (format.number word + format.number (word + 1)) / 2

/-- A word lies below the midpoint to the next one. -/
theorem number_lt_midpoint (word : Nat) :
    format.number word < format.midpoint word := by
  have next := format.strictMono_number (Nat.lt_succ_self word)
  unfold midpoint
  linarith

/-- The next word lies above the midpoint. -/
theorem midpoint_lt_number (word : Nat) :
    format.midpoint word < format.number (word + 1) := by
  have next := format.strictMono_number (Nat.lt_succ_self word)
  unfold midpoint
  linarith

/--
From the midpoint on upwards, the next word is nearer; only at the midpoint both are
as near.
-/
theorem nearer_above
    {word : Nat}
    {exact : ℚ}
    (notBelow : format.midpoint word ≤ exact) :
    |exact - format.number (word + 1)| ≤ |exact - format.number word| ∧
      (|exact - format.number (word + 1)| = |exact - format.number word| →
        exact = format.midpoint word) := by
  have next := format.strictMono_number (Nat.lt_succ_self word)
  have above := format.number_lt_midpoint word
  rw [abs_of_pos (by linarith : 0 < exact - format.number word)]
  unfold midpoint at notBelow ⊢
  constructor
  · exact abs_le.mpr (by constructor <;> linarith)
  · intro tie
    rcases abs_eq (by linarith) |>.mp tie with same | opposite <;> linarith

/--
Up to the midpoint, a word is nearer than the next; only at the midpoint both are as
near.
-/
theorem nearer_below
    {word : Nat}
    {exact : ℚ}
    (notAbove : exact ≤ format.midpoint word) :
    |exact - format.number word| ≤ |exact - format.number (word + 1)| ∧
      (|exact - format.number word| = |exact - format.number (word + 1)| →
        exact = format.midpoint word) := by
  have next := format.strictMono_number (Nat.lt_succ_self word)
  have below := format.midpoint_lt_number word
  rw [abs_of_neg (by linarith : exact - format.number (word + 1) < 0)]
  unfold midpoint at notAbove ⊢
  constructor
  · exact abs_le.mpr (by constructor <;> linarith)
  · intro tie
    rcases abs_eq (by linarith) |>.mp tie with same | opposite <;> linarith

/--
A word and the next one count steps of the same size, whose midpoint is an odd half
step.
-/
theorem exists_step (word : Nat) :
    ∃ level count,
      word = level * format.hiddenBit + count ∧
        (level = 0 ∨ format.hiddenBit ≤ count) ∧ count < 2 * format.hiddenBit ∧
        format.number word = count * (2 ^ level / format.unitsPerOne) ∧
        format.number (word + 1) = (count + 1) * (2 ^ level / format.unitsPerOne) ∧
        format.midpoint word =
          (2 * count + 1) * (2 ^ level / format.unitsPerOne / 2) := by
  obtain ⟨level, count, rfl, normal, within⟩ := format.exists_place word
  have nextNormal : level = 0 ∨ format.hiddenBit ≤ count + 1 :=
    normal.imp id Nat.le_succ_of_le
  have number_eq :
      format.number (level * format.hiddenBit + count) =
        count * (2 ^ level / format.unitsPerOne) := by
    rw [number, format.units_place normal within.le]
    push_cast
    ring
  have next_eq :
      format.number (level * format.hiddenBit + count + 1) =
        (count + 1) * (2 ^ level / format.unitsPerOne) := by
    rw [number, Nat.add_assoc, format.units_place nextNormal within]
    push_cast
    ring
  refine ⟨level, count, rfl, normal, within, number_eq, next_eq, ?_⟩
  rw [midpoint, number_eq, next_eq]
  ring

/-- A word is the one that a rational number is rounded to. -/
def RoundsTo (exact : ℚ) (word : Nat) : Prop :=
  ∃ numerator denominator : Nat,
    0 < denominator ∧ exact * format.unitsPerOne = numerator / denominator ∧
      format.roundUnits numerator denominator = word

/-- A ratio is rounded to the nearest word. -/
theorem roundsTo_roundRatio
    {denominator : Nat}
    (numerator : Nat)
    (positive : 0 < denominator) :
    format.RoundsTo (numerator / denominator)
      (format.roundRatio numerator denominator) := by
  refine ⟨numerator * format.unitsPerOne, denominator, positive, ?_, rfl⟩
  push_cast
  ring

/-- A product is rounded to the nearest word. -/
theorem roundsTo_mulWord (left right : Nat) :
    format.RoundsTo (format.number left * format.number right)
      (format.mulWord left right) := by
  have nonzero := format.unitsPerOne_ne_zero
  refine ⟨_, _, format.unitsPerOne_pos, ?_, rfl⟩
  simp only [number]
  push_cast
  field_simp

/-- A quotient is rounded to the nearest word. -/
theorem roundsTo_divWord
    {right : Nat}
    (left : Nat)
    (positive : 0 < format.units right) :
    format.RoundsTo (format.number left / format.number right)
      (format.divWord left right) := by
  have nonzero := format.unitsPerOne_ne_zero
  have divisor : (format.units right : ℚ) ≠ 0 := Nat.cast_ne_zero.mpr positive.ne'
  refine ⟨_, _, positive, ?_, rfl⟩
  simp only [number]
  push_cast
  field_simp

namespace RoundsTo

variable {format} {exact : ℚ} {word bound : Nat}

/-- A number that is not above that of a word is not rounded above the word. -/
theorem le
    (rounds : format.RoundsTo exact word)
    (within : bound ≤ format.infinityWord)
    (notAbove : exact ≤ format.number bound) :
    word ≤ bound := by
  obtain ⟨numerator, denominator, positive, same, rfl⟩ := rounds
  have scaled := mul_le_mul_of_nonneg_right notAbove format.unitsPerOne_cast_pos.le
  rw [number_mul_unitsPerOne, same,
    div_le_iff₀ (Nat.cast_pos.mpr positive)] at scaled
  have units : numerator ≤ format.units bound * denominator := by
    exact_mod_cast scaled
  calc
    format.roundUnits numerator denominator
      ≤ format.roundUnits (format.units bound * denominator) denominator :=
        format.roundUnits_mono positive units
    _ = bound := by
      rw [format.roundUnits_mul _ positive, format.roundUnits_units within]

/-- A number that is not below that of a word is not rounded below the word. -/
theorem ge
    (rounds : format.RoundsTo exact word)
    (within : bound ≤ format.infinityWord)
    (notBelow : format.number bound ≤ exact) :
    bound ≤ word := by
  obtain ⟨numerator, denominator, positive, same, rfl⟩ := rounds
  have scaled := mul_le_mul_of_nonneg_right notBelow format.unitsPerOne_cast_pos.le
  rw [number_mul_unitsPerOne, same,
    le_div_iff₀ (Nat.cast_pos.mpr positive)] at scaled
  have units : format.units bound * denominator ≤ numerator := by
    exact_mod_cast scaled
  calc
    bound = format.roundUnits (format.units bound * denominator) denominator := by
      rw [format.roundUnits_mul _ positive, format.roundUnits_units within]
    _ ≤ format.roundUnits numerator denominator :=
      format.roundUnits_mono positive units

/-- The number of a word is rounded to the word. -/
theorem eq_of_number
    (rounds : format.RoundsTo exact word)
    (within : bound ≤ format.infinityWord)
    (same : exact = format.number bound) :
    word = bound :=
  Nat.le_antisymm (rounds.le within same.le) (rounds.ge within same.ge)

/-- The distance of two numbers is that of them as rational numbers. -/
theorem cast_dist (left right : Nat) :
    (left.dist right : ℚ) = |(left : ℚ) - right| := by
  rcases le_total left right with le | ge
  · rw [Nat.dist_eq_sub_of_le le, Nat.cast_sub le, abs_sub_comm,
      abs_of_nonneg (sub_nonneg.mpr (Nat.cast_le.mpr le))]
  · rw [Nat.dist_eq_sub_of_le_right ge, Nat.cast_sub ge,
      abs_of_nonneg (sub_nonneg.mpr (Nat.cast_le.mpr ge))]

/-- The distance between a quotient of units and a word, counted in small units. -/
theorem cast_dist_units
    {numerator denominator : Nat}
    (positive : 0 < denominator)
    (same : exact * format.unitsPerOne = numerator / denominator)
    (other : Nat) :
    (numerator.dist (format.units other * denominator) : ℚ) =
      |exact - format.number other| * (denominator * format.unitsPerOne) := by
  have denominatorPositive : (0 : ℚ) < denominator := Nat.cast_pos.mpr positive
  have numerator_eq :
      (numerator : ℚ) = exact * format.unitsPerOne * denominator := by
    rw [same, div_mul_cancel₀ _ denominatorPositive.ne']
  have scale : (0 : ℚ) < denominator * format.unitsPerOne :=
    mul_pos denominatorPositive format.unitsPerOne_cast_pos
  calc
    (numerator.dist (format.units other * denominator) : ℚ)
      = |exact * format.unitsPerOne * denominator -
          format.number other * format.unitsPerOne * denominator| := by
        rw [cast_dist, numerator_eq, Nat.cast_mul, number_mul_unitsPerOne]
    _ = |(exact - format.number other) * (denominator * format.unitsPerOne)| := by
        congr 1
        ring
    _ = |exact - format.number other| * (denominator * format.unitsPerOne) := by
        rw [abs_mul, abs_of_pos scale]

/--
No word is nearer than the rounded one, which is even if another one is equally
near.
-/
theorem nearest
    (rounds : format.RoundsTo exact word)
    (fractional : 0 < format.fractionBits)
    (finite : word < format.infinityWord)
    (other : Nat) :
    |exact - format.number word| ≤ |exact - format.number other| ∧
      (|exact - format.number word| = |exact - format.number other| →
        other = word ∨ word % 2 = 0) := by
  obtain ⟨numerator, denominator, positive, same, rfl⟩ := rounds
  have scale : (0 : ℚ) < denominator * format.unitsPerOne :=
    mul_pos (Nat.cast_pos.mpr positive) format.unitsPerOne_cast_pos
  obtain ⟨notFarther, even⟩ :=
    format.nearestEven_roundUnits positive fractional finite other
  have distance := cast_dist_units positive same
  constructor
  · refine le_of_mul_le_mul_right ?_ scale
    rw [← distance, ← distance]
    exact Nat.cast_le.mpr notFarther
  · intro tie
    apply even
    have scaled := congrArg (· * (denominator * format.unitsPerOne : ℚ)) tie
    simp only [← distance] at scaled
    exact Nat.cast_injective scaled

/--
A number between the midpoints around a word is rounded to the word, and a midpoint
is if the word is even.
-/
theorem eq_of_between
    (rounds : format.RoundsTo exact word)
    (fractional : 0 < format.fractionBits)
    (finite : bound + 2 < format.infinityWord)
    (lower :
      format.midpoint bound < exact ∨
        format.midpoint bound = exact ∧ (bound + 1) % 2 = 0)
    (upper :
      exact < format.midpoint (bound + 1) ∨
        exact = format.midpoint (bound + 1) ∧ (bound + 1) % 2 = 0) :
    word = bound + 1 := by
  have lower_le : format.midpoint bound ≤ exact :=
    lower.elim le_of_lt fun tie => tie.1.le
  have upper_le : exact ≤ format.midpoint (bound + 1) :=
    upper.elim le_of_lt fun tie => tie.1.le
  have notBelow : bound ≤ word :=
    rounds.ge (by omega) ((format.number_lt_midpoint bound).le.trans lower_le)
  have notAbove : word ≤ bound + 2 :=
    rounds.le (by omega) (upper_le.trans (format.midpoint_lt_number (bound + 1)).le)
  obtain ⟨near, even⟩ := rounds.nearest fractional (by omega) (bound + 1)
  obtain rfl | rfl | rfl : bound = word ∨ word = bound + 1 ∨ word = bound + 2 := by
    omega
  · -- Only the lower midpoint is as near to the word below, which then is not even.
    obtain ⟨nearer, tie⟩ := format.nearer_above lower_le
    have same := near.antisymm nearer
    have isEven : (bound + 1) % 2 = 0 :=
      lower.elim (fun strict => absurd (tie same.symm) strict.ne') And.right
    rcases even same with impossible | wordEven <;> omega
  · rfl
  · -- Only the upper midpoint is as near to the word above, which then is not even.
    obtain ⟨nearer, tie⟩ := format.nearer_below upper_le
    have same := near.antisymm nearer
    have isEven : (bound + 1) % 2 = 0 :=
      upper.elim (fun strict => absurd (tie same.symm) strict.ne) And.right
    rcases even same with impossible | wordEven <;> omega

/-- Rounding is off by at most half a step of the binade of the number. -/
theorem twice_error_le_step
    {numerator denominator : Nat}
    (positive : 0 < denominator)
    (same : exact * format.unitsPerOne = numerator / denominator)
    (finite : format.roundUnits numerator denominator < format.infinityWord) :
    |exact -
        format.number (format.roundUnits numerator denominator)| *
          format.unitsPerOne * 2 ≤
      2 ^ format.doublings (numerator / denominator) := by
  have units := format.units_roundUnits positive finite
  have distance :=
    cast_dist_units positive same (format.roundUnits numerator denominator)
  generalize format.roundUnits numerator denominator = word at units distance ⊢
  unfold nearestSteps at units
  generalize format.doublings (numerator / denominator) = level at units ⊢
  have near :
      2 * numerator.dist (format.units word * denominator) ≤
        denominator * 2 ^ level := by
    have steps := Nat.mul_pos positive (Nat.two_pow_pos level)
    have sizes :
        format.units word * denominator =
          divNearestEven numerator (denominator * 2 ^ level) *
            (denominator * 2 ^ level) := by
      rw [units]
      ring
    rw [sizes]
    exact two_mul_dist_divNearestEven_le numerator steps
  have nearCast :
      (2 : ℚ) * (numerator.dist (format.units word * denominator) : Nat) ≤
        denominator * 2 ^ level := by
    exact_mod_cast near
  rw [distance] at nearCast
  refine
    le_of_mul_le_mul_right ?_ (Nat.cast_pos.mpr positive : (0 : ℚ) < denominator)
  linarith

/--
Rounding is off by at most half a unit or half a step, which is a fraction of the
number.
-/
theorem error_le
    (rounds : format.RoundsTo exact word)
    (finite : word < format.infinityWord) :
    |format.number word - exact| ≤
      max ((1 : ℚ) / (2 * format.unitsPerOne))
        (exact / (2 * format.hiddenBit)) := by
  obtain ⟨numerator, denominator, positive, same, rfl⟩ := rounds
  have one_pos := format.unitsPerOne_cast_pos
  have hiddenPositive : (0 : ℚ) < format.hiddenBit :=
    Nat.cast_pos.mpr format.hiddenBit_pos
  have least := format.binade_le (numerator / denominator)
  have halfStep := twice_error_le_step positive same finite
  generalize format.roundUnits numerator denominator = word at halfStep ⊢
  generalize format.doublings (numerator / denominator) = level at least halfStep
  rw [abs_sub_comm]
  rcases least with lowest | reached
  · refine le_max_of_le_left ?_
    rw [lowest, pow_zero] at halfStep
    rw [le_div_iff₀ (by positivity)]
    linarith
  · refine le_max_of_le_right ?_
    have binade :
        (format.hiddenBit : ℚ) * 2 ^ level ≤ exact * format.unitsPerOne := by
      rw [same, le_div_iff₀ (Nat.cast_pos.mpr positive)]
      exact_mod_cast Nat.mul_le_of_le_div _ _ _ reached
    rw [le_div_iff₀ (by positivity)]
    refine le_of_mul_le_mul_right ?_ one_pos
    calc
      |exact - format.number word| * (2 * format.hiddenBit) * format.unitsPerOne
        = |exact -
          format.number word| * format.unitsPerOne * 2 * format.hiddenBit := by ring
      _ ≤ 2 ^ level * format.hiddenBit :=
        mul_le_mul_of_nonneg_right halfStep hiddenPositive.le
      _ ≤ exact * format.unitsPerOne := by linarith

/-- A number with a hidden bit is off by at most a fraction of it. -/
theorem relative_error_le
    (rounds : format.RoundsTo exact word)
    (finite : word < format.infinityWord)
    (normal : (format.hiddenBit : ℚ) / format.unitsPerOne ≤ exact) :
    |format.number word - exact| ≤ exact / (2 * format.hiddenBit) := by
  have hiddenPositive : (0 : ℚ) < format.hiddenBit :=
    Nat.cast_pos.mpr format.hiddenBit_pos
  have one_pos := format.unitsPerOne_cast_pos
  refine (rounds.error_le finite).trans (max_le ?_ le_rfl)
  rw [div_le_iff₀ one_pos] at normal
  rw [div_le_div_iff₀ (by positivity) (by positivity)]
  linarith

end RoundsTo

end BinaryFormat

end StreamJoin
