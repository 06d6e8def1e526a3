import StreamJoin.Proofs.NumericOrder
import StreamJoin.Value.Order

namespace StreamJoin

/-!
# The SQL order of all values

Values of one family are ordered with one another, except for words that are no
numbers, and values of different families are not.  The order is antisymmetric, and
being less is a strict partial order, although whole numbers are compared exactly
and other numbers after rounding, and being equal is not transitive: the ends of a
chain that switches between the two comparisons are still in order, because rounding
is monotone.
-/

namespace Extended

/-- The order of two denotations from the other side. -/
theorem order_swap (left right : Extended) :
    right.order left = (left.order right).map Ordering.swap := by
  cases left <;> cases right <;> try rfl
  case finite.finite left right => exact congrArg some Std.OrientedOrd.eq_swap

/-- What has a number has one after rounding. -/
theorem exists_exact_nearest
    {denoted : Extended}
    {number : ExactNumber}
    (exact : denoted.exactNumber? = some number) :
    ∃ rounded, denoted.nearest.exactNumber? = some rounded := by
  cases denoted with
  | nan => cases exact
  | _ => exact ⟨_, rfl⟩

end Extended

namespace Value

/--
A value is a number, and the nearest number that a 64-bit word has is known as well.
-/
def Numbered (value : Value) (exact rounded : ExactNumber) : Prop :=
  ∃ denoted, value.denoted? = some denoted ∧ denoted.exactNumber? = some exact ∧
    denoted.nearest.exactNumber? = some rounded

section Numbers

variable {left right : Value}
  {leftExact leftRounded rightExact rightRounded : ExactNumber}

/-- A number that is no `NaN` has an exact and a rounded reading. -/
theorem exists_numbered
    {value : Value}
    (numeric : value.family? = some .numbers)
    (isNumber : value.isNaN = false) :
    ∃ exact rounded, value.Numbered exact rounded := by
  obtain ⟨denoted, exact, denotes, isExact, -⟩ := exists_exact numeric isNumber
  obtain ⟨rounded, isRounded⟩ := Extended.exists_exact_nearest isExact
  exact ⟨exact, rounded, denoted, denotes, isExact, isRounded⟩

/-- Rounding is monotone in the exact numbers. -/
theorem Numbered.rounded_mono
    (leftNumbered : left.Numbered leftExact leftRounded)
    (rightNumbered : right.Numbered rightExact rightRounded)
    (le : leftExact ≤ rightExact) :
    leftRounded ≤ rightRounded := by
  obtain ⟨leftDenoted, -, leftIsExact, leftIsRounded⟩ := leftNumbered
  obtain ⟨rightDenoted, -, rightIsExact, rightIsRounded⟩ := rightNumbered
  have ordered := Extended.order_of_exact leftIsExact rightIsExact
  have rounded := Extended.order_of_exact leftIsRounded rightIsRounded
  rcases Extended.order_nearest ordered with kept | equal
  · have same := Option.some.inj (rounded.symm.trans kept)
    rw [← compare_le_iff_le] at le ⊢
    exact same ▸ le
  · exact (compare_eq_iff_eq.mp (Option.some.inj (rounded.symm.trans equal))).le

/--
Two whole numbers are in their exact order, and others in the order of the rounded
numbers.
-/
theorem sqlOrder?_of_numbered
    (leftNumbered : left.Numbered leftExact leftRounded)
    (rightNumbered : right.Numbered rightExact rightRounded) :
    left.sqlOrder? right =
      some
        (if left.isWhole && right.isWhole then
          compare leftExact rightExact
        else
          compare leftRounded rightRounded) := by
  obtain ⟨leftDenoted, leftDenotes, leftIsExact, leftIsRounded⟩ := leftNumbered
  obtain ⟨rightDenoted, rightDenotes, rightIsExact, rightIsRounded⟩ := rightNumbered
  rw [sqlOrder?_of_denotes leftDenotes rightDenotes,
    Extended.order_of_exact leftIsExact rightIsExact,
    Extended.order_of_exact leftIsRounded rightIsRounded, apply_ite some]

/-- A chain of two comparisons of numbers, each exact or rounded, ends in order. -/
theorem Numbered.lt_trans
    {middle : Value}
    {middleExact middleRounded : ExactNumber}
    (leftNumbered : left.Numbered leftExact leftRounded)
    (middleNumbered : middle.Numbered middleExact middleRounded)
    (rightNumbered : right.Numbered rightExact rightRounded)
    (first : left.sqlOrder? middle = some .lt)
    (second : middle.sqlOrder? right = some .lt) :
    left.sqlOrder? right = some .lt := by
  rw [sqlOrder?_of_numbered leftNumbered middleNumbered, Option.some.injEq] at first
  rw [sqlOrder?_of_numbered middleNumbered rightNumbered,
    Option.some.injEq] at second
  rw [sqlOrder?_of_numbered leftNumbered rightNumbered, Option.some.injEq]
  have upTo := leftNumbered.rounded_mono middleNumbered
  have upFrom := middleNumbered.rounded_mono rightNumbered
  have across := rightNumbered.rounded_mono leftNumbered
  cases leftWhole : left.isWhole <;> cases middleWhole : middle.isWhole <;>
    cases rightWhole : right.isWhole <;>
    simp only [leftWhole, middleWhole, rightWhole, Bool.and_true, Bool.and_false,
      Bool.and_self, Bool.false_eq_true, if_true, if_false, compare_lt_iff_lt]
        at first second ⊢
  case false.false.false | false.false.true | false.true.false | true.false.false =>
    exact first.trans second
  case true.true.true => exact first.trans second
  case false.true.true => exact first.trans_le (upFrom second.le)
  case true.true.false => exact (upTo first.le).trans_lt second
  case true.false.true =>
    -- The comparison of the ends is the only exact one.
    exact lt_of_not_ge fun reversed => (first.trans second).not_ge (across reversed)

end Numbers

section Order

variable {left middle right : Value} {family : OrderFamily}

/-- Whether two values are present and their types have a common order. -/
def Comparable (left right : Value) : Prop :=
  ∃ family, left.family? = some family ∧ right.family? = some family

instance (left right : Value) : Decidable (left.Comparable right) :=
  decidable_of_iff (left.family?.isSome = true ∧ left.family? = right.family?) <| by
    constructor
    · rintro ⟨present, same⟩
      obtain ⟨family, leftFamily⟩ := Option.isSome_iff_exists.mp present
      exact ⟨family, leftFamily, same ▸ leftFamily⟩
    · rintro ⟨family, leftFamily, rightFamily⟩
      exact
        ⟨Option.isSome_iff_exists.mpr ⟨family, leftFamily⟩,
          leftFamily.trans rightFamily.symm⟩

/-- To be comparable goes both ways. -/
theorem comparable_comm : left.Comparable right ↔ right.Comparable left := by
  simp only [Comparable, and_comm]

/-- Only values of one family have an order. -/
theorem comparable_of_sqlOrder?
    {found : Ordering}
    (ordered : left.sqlOrder? right = some found) :
    left.Comparable right := by
  cases left <;> cases right <;> first | exact ⟨_, rfl, rfl⟩ | cases ordered

/--
Values of a family that is not the one of numbers are in the order of their sort
keys.
-/
theorem sqlOrder?_of_sortKey
    (notNumeric : family ≠ .numbers)
    (leftFamily : left.family? = some family)
    (rightFamily : right.family? = some family) :
    left.sqlOrder? right = some (compare left.sortKey right.sortKey) := by
  cases left <;> cases leftFamily <;> cases right <;> cases rightFamily <;>
    first | exact absurd rfl notNumeric | simp [sqlOrder?, sortKey]

/-- The order of two values from the other side. -/
theorem sqlOrder?_swap (left right : Value) :
    right.sqlOrder? left = (left.sqlOrder? right).map Ordering.swap := by
  by_cases comparable : left.Comparable right
  · obtain ⟨family, leftFamily, rightFamily⟩ := comparable
    by_cases numeric : family = .numbers
    · subst numeric
      obtain ⟨leftDenoted, leftDenotes⟩ := exists_denoted_iff.mpr leftFamily
      obtain ⟨rightDenoted, rightDenotes⟩ := exists_denoted_iff.mpr rightFamily
      rw [sqlOrder?_of_denotes leftDenotes rightDenotes,
        sqlOrder?_of_denotes rightDenotes leftDenotes, Bool.and_comm,
        apply_ite (Option.map _), ← Extended.order_swap, ← Extended.order_swap]
    · rw [sqlOrder?_of_sortKey numeric leftFamily rightFamily,
        sqlOrder?_of_sortKey numeric rightFamily leftFamily, Option.map_some,
        ← Std.OrientedOrd.eq_swap]
  · have unordered : left.sqlOrder? right = none :=
      Option.eq_none_iff_forall_ne_some.mpr fun found ordered =>
        comparable (comparable_of_sqlOrder? ordered)
    have reversed : right.sqlOrder? left = none :=
      Option.eq_none_iff_forall_ne_some.mpr fun found ordered =>
        comparable (comparable_comm.mp (comparable_of_sqlOrder? ordered))
    rw [unordered, reversed, Option.map_none]

/-- A word that is marked as no number has no order with anything. -/
theorem sqlOrder?_of_isNaN (isNaN : left.isNaN = true) :
    left.sqlOrder? right = none := by
  refine Option.eq_none_iff_forall_ne_some.mpr fun found ordered => ?_
  obtain ⟨family, leftFamily, rightFamily⟩ := comparable_of_sqlOrder? ordered
  have numeric : family = .numbers := by
    cases left <;> first | cases leftFamily; rfl | cases isNaN
  subst numeric
  obtain ⟨leftDenoted, leftDenotes⟩ := exists_denoted_iff.mpr leftFamily
  obtain ⟨rightDenoted, rightDenotes⟩ := exists_denoted_iff.mpr rightFamily
  obtain rfl := (denotes_nan_iff leftDenotes).mpr isNaN
  rw [sqlOrder?_of_denotes leftDenotes rightDenotes] at ordered
  split at ordered
  · cases ordered
  · cases ordered

/-- Comparable values have an order unless one of them is marked as no number. -/
theorem exists_sqlOrder?_iff :
    (∃ found, left.sqlOrder? right = some found) ↔
      left.Comparable right ∧ left.isNaN = false ∧ right.isNaN = false := by
  constructor
  · rintro ⟨found, ordered⟩
    have reversed := sqlOrder?_swap left right
    rw [ordered, Option.map_some] at reversed
    refine ⟨comparable_of_sqlOrder? ordered, ?_, ?_⟩
    · refine Bool.eq_false_iff.mpr fun isNaN => ?_
      cases ordered.symm.trans (sqlOrder?_of_isNaN isNaN)
    · refine Bool.eq_false_iff.mpr fun isNaN => ?_
      cases reversed.symm.trans (sqlOrder?_of_isNaN isNaN)
  · rintro ⟨⟨family, leftFamily, rightFamily⟩, leftIsNumber, rightIsNumber⟩
    by_cases numeric : family = .numbers
    · subst numeric
      obtain ⟨_, _, leftNumbered⟩ := exists_numbered leftFamily leftIsNumber
      obtain ⟨_, _, rightNumbered⟩ := exists_numbered rightFamily rightIsNumber
      exact ⟨_, sqlOrder?_of_numbered leftNumbered rightNumbered⟩
    · exact ⟨_, sqlOrder?_of_sortKey numeric leftFamily rightFamily⟩

/-- To be less is transitive. -/
theorem sqlOrder?_lt_trans
    (first : left.sqlOrder? middle = some .lt)
    (second : middle.sqlOrder? right = some .lt) :
    left.sqlOrder? right = some .lt := by
  obtain ⟨⟨family, leftFamily, middleFamily⟩, leftIsNumber, middleIsNumber⟩ :=
    exists_sqlOrder?_iff.mp ⟨_, first⟩
  obtain ⟨⟨_, middleFamily', rightFamily⟩, -, rightIsNumber⟩ :=
    exists_sqlOrder?_iff.mp ⟨_, second⟩
  obtain rfl := Option.some.inj (middleFamily.symm.trans middleFamily')
  by_cases numeric : family = .numbers
  · subst numeric
    obtain ⟨_, _, leftNumbered⟩ := exists_numbered leftFamily leftIsNumber
    obtain ⟨_, _, middleNumbered⟩ := exists_numbered middleFamily middleIsNumber
    obtain ⟨_, _, rightNumbered⟩ := exists_numbered rightFamily rightIsNumber
    exact leftNumbered.lt_trans middleNumbered rightNumbered first second
  · rw [sqlOrder?_of_sortKey numeric leftFamily middleFamily,
      Option.some.injEq] at first
    rw [sqlOrder?_of_sortKey numeric middleFamily rightFamily,
      Option.some.injEq] at second
    rw [sqlOrder?_of_sortKey numeric leftFamily rightFamily,
      Std.TransCmp.lt_trans first second]

/-- A value is equal to itself unless it is null or no number. -/
theorem sqlOrder?_self
    {value : Value}
    (present : value.isNull = false)
    (isNumber : value.isNaN = false) :
    value.sqlOrder? value = some .eq := by
  cases family : value.family? with
  | none => cases value <;> simp_all [isNull, family?, type?]
  | some found =>
      by_cases numeric : found = .numbers
      · subst numeric
        obtain ⟨_, _, numbered⟩ := exists_numbered family isNumber
        rw [sqlOrder?_of_numbered numbered numbered, Std.compare_self,
          Std.compare_self, ite_self]
      · rw [sqlOrder?_of_sortKey numeric family family, Std.compare_self]

/--
The SQL order is antisymmetric, being less is a strict partial order, and a value
that is neither null nor marked as no number is equal to itself.
-/
theorem sqlOrder?_strict (left middle right : Value) :
    right.sqlOrder? left = (left.sqlOrder? right).map Ordering.swap ∧
      left.sqlOrder? left ≠ some .lt ∧
      (left.sqlOrder? middle = some .lt → middle.sqlOrder? right = some .lt →
        left.sqlOrder? right = some .lt) ∧
      (left = right → left.isNull = false → left.isNaN = false →
        left.sqlOrder? right = some .eq) := by
  refine ⟨sqlOrder?_swap left right, ?_, sqlOrder?_lt_trans, ?_⟩
  · intro less
    have reversed := sqlOrder?_swap left left
    rw [less] at reversed
    cases reversed
  · rintro rfl present isNumber
    exact sqlOrder?_self present isNumber

/-- The ends of a chain of an exact comparison and a rounded one are in order. -/
theorem sqlOrder?_strict_sample :
    (Value.long 9007199254740992).sqlOrder? (.double 0x4340000000000001) =
      some .lt :=
  (sqlOrder?_strict (.long 9007199254740992) (.long 9007199254740993)
    (.double 0x4340000000000001)).2.2.1 (by decide +kernel) (by decide +kernel)

end Order

end Value

end StreamJoin
