import StreamJoin.Proofs.RoundedNumbers

namespace StreamJoin

/-!
# The comparison of numbers

Two numbers are compared exactly when both are whole, and after rounding to 64-bit
words when one is floating point.  Since only long numbers of more than 53 bits are
changed by rounding, all other comparisons are exact too, and since rounding
reverses no order, a comparison that says less or greater is right also where it
rounds.  That is the main result, `Value.sqlOrder?_respects_exact`.
-/

/-- The types whose values are compared with one another. -/
inductive OrderFamily where
  | truths
  | numbers
  | texts
  | contents
  deriving Repr, DecidableEq

/-- The family of a type. -/
def ColumnType.family : ColumnType → OrderFamily
  | .boolean => .truths
  | .int => .numbers
  | .long => .numbers
  | .float => .numbers
  | .double => .numbers
  | .string => .texts
  | .bytes => .contents

namespace Value

/-- The family of a value; null has none. -/
def family? (value : Value) : Option OrderFamily :=
  value.type?.map ColumnType.family

/-- Whether a value is a whole number. -/
def isWhole : Value → Bool
  | .int _ => true
  | .long _ => true
  | _ => false

/-- Whether a value is a floating-point word. -/
def isFloating : Value → Bool
  | .float _ => true
  | .double _ => true
  | _ => false

/-- Whether a value is a long number of more than 53 bits. -/
def isWideLong : Value → Bool
  | .long number => 2 ^ 53 < number.toInt.natAbs
  | _ => false

/-- Whether a comparison of two values rounds a long number of more than 53 bits. -/
def roundsAgainst (left right : Value) : Bool :=
  left.isWideLong && right.isFloating || left.isFloating && right.isWideLong

section Numbers

variable {value left right : Value} {denoted leftDenoted rightDenoted : Extended}

/-- Exactly the numbers have a denotation. -/
theorem exists_denoted_iff :
    (∃ denoted, value.denoted? = some denoted) ↔ value.family? = some .numbers := by
  cases value <;> simp [denoted?, asDouble?, family?, type?, ColumnType.family]

/-- A number is whole exactly if it is no float. -/
theorem isWhole_eq_not_isFloating (numeric : value.family? = some .numbers) :
    value.isWhole = !value.isFloating := by
  cases value <;> simp_all [family?, type?, ColumnType.family, isWhole, isFloating]

/-- A word that is no number is the only one that denotes none. -/
theorem denotes_nan_iff (denotes : value.denoted? = some denoted) :
    denoted = .nan ↔ value.isNaN = true := by
  cases value with
  | int number => cases denotes; exact ⟨nofun, nofun⟩
  | long number => cases denotes; exact ⟨nofun, nofun⟩
  | float word => cases denotes; exact Extended.ofWord_eq_nan_iff .single word.toNat
  | double word =>
      cases denotes; exact Extended.ofWord_eq_nan_iff .double word.toNat
  | _ => cases denotes

/-- Rounding changes long numbers of more than 53 bits only. -/
theorem nearest_of_denotes
    (narrow : value.isWideLong = false)
    (denotes : value.denoted? = some denoted) :
    denoted.nearest = denoted := by
  have rounded := value.asDouble?_eq_map
  rw [denotes, Option.map_some] at rounded
  cases value with
  | long number =>
      cases denotes
      have small : number.toInt.natAbs ≤ 2 ^ 53 := by
        simpa [isWideLong] using narrow
      exact Extended.nearest_ofInt small
  | int number => cases denotes; exact (Option.some.inj rounded).symm
  | float word => cases denotes; exact (Option.some.inj rounded).symm
  | double word => cases denotes; exact (Option.some.inj rounded).symm
  | _ => cases denotes

/-- Whole numbers are compared exactly, and all other numbers as 64-bit words. -/
theorem sqlOrder?_of_denotes
    (leftDenotes : left.denoted? = some leftDenoted)
    (rightDenotes : right.denoted? = some rightDenoted) :
    left.sqlOrder? right =
      if left.isWhole && right.isWhole then
        leftDenoted.order rightDenoted
      else
        leftDenoted.nearest.order rightDenoted.nearest := by
  have leftRounded := left.asDouble?_eq_map
  have rightRounded := right.asDouble?_eq_map
  rw [leftDenotes, Option.map_some] at leftRounded
  rw [rightDenotes, Option.map_some] at rightRounded
  cases left <;> cases right <;>
    first | cases leftDenotes; done | cases rightDenotes; done | skip
  case int.int | int.long | long.int | long.long =>
    cases leftDenotes
    cases rightDenotes
    exact (Extended.order_ofInt _ _).symm
  all_goals
    simp only [sqlOrder?, isWhole, leftRounded, rightRounded, Bool.and_false,
      Bool.false_and, Bool.false_eq_true, if_false]

/-- Exactly the numbers that are not marked as no number have an exact number. -/
theorem exists_exact
    (numeric : value.family? = some .numbers)
    (isNumber : value.isNaN = false) :
    ∃ denoted number,
      value.denoted? = some denoted ∧ denoted.exactNumber? = some number ∧
        value.exactNumber? = some number := by
  obtain ⟨denoted, denotes⟩ := exists_denoted_iff.mpr numeric
  have present : denoted ≠ .nan := by
    rw [ne_eq, denotes_nan_iff denotes, isNumber]
    exact Bool.false_ne_true
  have exactNumber?_eq := value.exactNumber?_eq_bind
  rw [denotes, Option.bind_some] at exactNumber?_eq
  cases denoted with
  | nan => exact absurd rfl present
  | _ => exact ⟨_, _, denotes, rfl, exactNumber?_eq⟩

/--
A comparison that rounds no wide long number has none on its left, or is of whole
numbers.
-/
theorem isWideLong_eq_false
    (rightNumeric : right.family? = some .numbers)
    (exactly : left.roundsAgainst right = false)
    (notBothWhole : (left.isWhole && right.isWhole) = false) :
    left.isWideLong = false := by
  cases left with
  | long number =>
      have floating := isWhole_eq_not_isFloating rightNumeric
      simp_all [roundsAgainst, isWhole]
  | _ => rfl

/-- To be rounded against each other goes both ways. -/
theorem roundsAgainst_comm :
    left.roundsAgainst right = right.roundsAgainst left := by
  simp only [roundsAgainst, Bool.and_comm, Bool.or_comm]

/--
A comparison of numbers finds their exact order, or it rounds and finds them equal.
-/
theorem sqlOrder?_cases
    {exactOrder : Ordering}
    (leftDenotes : left.denoted? = some leftDenoted)
    (rightDenotes : right.denoted? = some rightDenoted)
    (ordered : leftDenoted.order rightDenoted = some exactOrder) :
    left.sqlOrder? right = some exactOrder ∨
      left.roundsAgainst right = true ∧ left.sqlOrder? right = some .eq := by
  have leftNumeric := exists_denoted_iff.mp ⟨_, leftDenotes⟩
  have rightNumeric := exists_denoted_iff.mp ⟨_, rightDenotes⟩
  rw [sqlOrder?_of_denotes leftDenotes rightDenotes]
  cases bothWhole : left.isWhole && right.isWhole with
  | true => exact .inl ordered
  | false =>
      rw [if_neg Bool.false_ne_true]
      cases rounds : left.roundsAgainst right with
      | true =>
          exact (Extended.order_nearest ordered).imp id fun equal => ⟨rfl, equal⟩
      | false =>
          have leftNarrow := isWideLong_eq_false rightNumeric rounds bothWhole
          rw [roundsAgainst_comm] at rounds
          rw [Bool.and_comm] at bothWhole
          have rightNarrow := isWideLong_eq_false leftNumeric rounds bothWhole
          rw [nearest_of_denotes leftNarrow leftDenotes,
            nearest_of_denotes rightNarrow rightDenotes]
          exact .inl ordered

/--
The comparison of two numbers never contradicts their exact order.  It is their
exact order unless it rounds a long number of more than 53 bits, and then it may
only find equal what is not.
-/
theorem sqlOrder?_respects_exact
    (left right : Value)
    (leftNumeric : left.family? = some .numbers)
    (rightNumeric : right.family? = some .numbers)
    (leftIsNumber : left.isNaN = false)
    (rightIsNumber : right.isNaN = false) :
    ∃ leftNumber rightNumber order,
      left.exactNumber? = some leftNumber ∧ right.exactNumber? = some rightNumber ∧
        left.sqlOrder? right = some order ∧
        (left.roundsAgainst right = false →
          order = compare leftNumber rightNumber) ∧
        (order = .lt → leftNumber < rightNumber) ∧
          (order = .gt → rightNumber < leftNumber) := by
  obtain ⟨leftDenoted, leftNumber, leftDenotes, leftDenotedExact, leftExact⟩ :=
    exists_exact leftNumeric leftIsNumber
  obtain ⟨rightDenoted, rightNumber, rightDenotes, rightDenotedExact, rightExact⟩ :=
    exists_exact rightNumeric rightIsNumber
  have ordered := Extended.order_of_exact leftDenotedExact rightDenotedExact
  rcases sqlOrder?_cases leftDenotes rightDenotes ordered with
    found | ⟨rounds, equal⟩
  · refine ⟨_, _, _, leftExact, rightExact, found, fun _ => rfl, ?_, ?_⟩
    · exact compare_lt_iff_lt.mp
    · exact compare_gt_iff_gt.mp
  · refine ⟨_, _, _, leftExact, rightExact, equal, ?_, nofun, nofun⟩
    intro exactly
    rw [rounds] at exactly
    cases exactly

/--
The number above `2 ^ 53` is equal to the single word of `2 ^ 53`, because it is
rounded down.  That `2 ^ 53` itself is less than the next single word is read off
their comparison.
-/
theorem sqlOrder?_respects_exact_sample :
    (Value.long 9007199254740993).sqlOrder? (.float 0x5a000000) = some .eq ∧
      ∃ leftNumber rightNumber,
        (Value.long 9007199254740992).exactNumber? = some leftNumber ∧
          (Value.float 0x5a000001).exactNumber? = some rightNumber ∧
            leftNumber < rightNumber := by
  refine ⟨by decide +kernel, ?_⟩
  obtain ⟨leftNumber, rightNumber, order, leftExact, rightExact, found, -, less,
    -⟩ :=
    sqlOrder?_respects_exact (.long 9007199254740992) (.float 0x5a000001) rfl rfl
      rfl rfl
  have below :
      (Value.long 9007199254740992).sqlOrder? (.float 0x5a000001) = some .lt := by
    decide +kernel
  exact
    ⟨_, _, leftExact, rightExact, less (Option.some.inj (found.symm.trans below))⟩

end Numbers

end Value

end StreamJoin
