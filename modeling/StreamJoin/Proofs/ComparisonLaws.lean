import StreamJoin.Proofs.SqlOrder
import StreamJoin.Residual.Comparison

namespace StreamJoin

/-!
# The laws of comparisons

What becomes of a comparison in a row is decided by its operands before the test is
asked: it fails, it is null, or the test is asked of the order of the two values.
The three cases are the constructors of `Comparison.Outcome`, for the operands in
both orders.  The laws follow case by case: a test and its complement divide the
rows whose operands are ordered, and a comparison says the same with its operands
exchanged.
-/

namespace OrderTest

/-- The test that holds where another one does not. -/
def complement : OrderTest → OrderTest
  | .equal => .unequal
  | .unequal => .equal
  | .below => .atLeast
  | .atMost => .above
  | .above => .atMost
  | .atLeast => .below

/-- The test that says the same of the operands in the other order. -/
def mirror : OrderTest → OrderTest
  | .equal => .equal
  | .unequal => .unequal
  | .below => .above
  | .atMost => .atLeast
  | .above => .below
  | .atLeast => .atMost

/-- A test and its complement never agree on an order. -/
theorem holds_complement (test : OrderTest) (order : Ordering) :
    test.complement.holds order = !test.holds order := by
  cases test <;> cases order <;> rfl

/-- The mirrored test asks the same of the swapped order. -/
theorem holds_mirror (test : OrderTest) (order : Ordering) :
    test.mirror.holds order.swap = test.holds order := by
  cases test <;> cases order <;> rfl

/-- At most is below or equal. -/
theorem holds_atMost (order : Ordering) :
    OrderTest.atMost.holds order =
      (OrderTest.below.holds order || OrderTest.equal.holds order) := by
  cases order <;> rfl

end OrderTest

/-- The only value that is null is null. -/
theorem Value.isNull_iff_eq_null {value : Value} :
    value.isNull = true ↔ value = .null := by
  cases value <;> simp [isNull]

/-- Whether the value of one of two operands is null. -/
def Operand.EitherNull (left right : Operand) (row : Row) : Prop :=
  left.valueIn row = .ok .null ∨ right.valueIn row = .ok .null

namespace Residuals

/-- A single predicate decides alone. -/
theorem accepts_singleton (predicate : Predicate) (row : Row) :
    (Residuals.mk [predicate]).accepts row = predicate row >>= Value.truth := by
  simp only [accepts, allHold]
  cases predicate row with
  | error fault => rfl
  | ok value =>
      simp only [bind, Except.bind]
      rcases value.truth with fault | _ | _ <;> rfl

end Residuals

namespace Comparison

/-- The same operands with another test. -/
def asking (comparison : Comparison) (test : OrderTest) : Comparison :=
  { comparison with test := test }

/-- The comparison that is true where another one is false. -/
def complement (comparison : Comparison) : Comparison :=
  comparison.asking comparison.test.complement

/-- The comparison with its operands exchanged that says the same. -/
def mirror (comparison : Comparison) : Comparison :=
  ⟨comparison.right, comparison.test.mirror, comparison.left⟩

/-- A comparison as the only residual predicate of a join. -/
def toResiduals (comparison : Comparison) : Residuals := ⟨[comparison.toPredicate]⟩

section Values

variable {left right : Value} {order : Ordering}

/-- The failure of a comparison of two values that have no order. -/
def unorderedFault (left right : Value) : Fault :=
  .predicateFailed ("cannot compare " ++ left.text ++ " with " ++ right.text)

/-- A comparison with a null is unknown. -/
theorem compareValues_of_isNull
    (isNull : (left.isNull || right.isNull) = true)
    (test : OrderTest) :
    compareValues test left right = .ok .null :=
  if_pos isNull

/-- Values that have no order fail to be compared. -/
theorem compareValues_of_unordered
    (present : (left.isNull || right.isNull) = false)
    (unordered : left.sqlOrder? right = none)
    (test : OrderTest) :
    compareValues test left right = .error (unorderedFault left right) := by
  simp only [compareValues, present, unordered, Bool.false_eq_true, if_false,
    unorderedFault]

/-- Values that have an order are compared by it. -/
theorem compareValues_of_ordered
    (present : (left.isNull || right.isNull) = false)
    (ordered : left.sqlOrder? right = some order)
    (test : OrderTest) :
    compareValues test left right = .ok (.boolean (test.holds order)) := by
  simp only [compareValues, present, ordered, Bool.false_eq_true, if_false]

end Values

section Operands

variable {left right : Operand} {leftValue rightValue : Value} {fault : Fault}
  {row : Row}

/-- A left operand that is missing fails the comparison. -/
theorem toPredicate_of_left
    (missing : left.valueIn row = .error fault)
    (test : OrderTest) :
    (Comparison.mk left test right).toPredicate row = .error fault := by
  simp only [toPredicate, missing]

/--
A right operand that is missing fails the comparison if the left one is there.
-/
theorem toPredicate_of_right
    (found : left.valueIn row = .ok leftValue)
    (missing : right.valueIn row = .error fault)
    (test : OrderTest) :
    (Comparison.mk left test right).toPredicate row = .error fault := by
  simp only [toPredicate, found, missing]

/-- With both operands there, the comparison is that of their values. -/
theorem toPredicate_of_found
    (leftFound : left.valueIn row = .ok leftValue)
    (rightFound : right.valueIn row = .ok rightValue)
    (test : OrderTest) :
    (Comparison.mk left test right).toPredicate row =
      compareValues test leftValue rightValue := by
  simp only [toPredicate, leftFound, rightFound]

/--
What becomes of the comparisons of two operands in a row, in either order of the
operands.
-/
inductive Outcome (left right : Operand) (row : Row) : Prop where
  | fails
      (fault other : Fault)
      (forward :
        ∀ test, (Comparison.mk left test right).toPredicate row = .error fault)
      (backward :
        ∀ test, (Comparison.mk right test left).toPredicate row = .error other)
  | isNull
      (eitherNull : left.EitherNull right row)
      (forward :
        ∀ test, (Comparison.mk left test right).toPredicate row = .ok .null)
      (backward :
        ∀ test, (Comparison.mk right test left).toPredicate row = .ok .null)
  | ordered
      (order : Ordering)
      (present : ¬ left.EitherNull right row)
      (forward :
        ∀ test,
          (Comparison.mk left test right).toPredicate row =
            .ok (.boolean (test.holds order)))
      (backward :
        ∀ test,
          (Comparison.mk right test left).toPredicate row =
            .ok (.boolean (test.holds order.swap)))

/-- Two values that are found are compared alike in both orders. -/
theorem outcome_of_found
    (leftFound : left.valueIn row = .ok leftValue)
    (rightFound : right.valueIn row = .ok rightValue) :
    Outcome left right row := by
  have forward := toPredicate_of_found leftFound rightFound
  have backward := toPredicate_of_found rightFound leftFound
  have eitherNull_iff :
      left.EitherNull right row ↔
        (leftValue.isNull || rightValue.isNull) = true := by
    simp only [Operand.EitherNull, leftFound, rightFound, Except.ok.injEq,
      Bool.or_eq_true, Value.isNull_iff_eq_null]
  have reversed := leftValue.sqlOrder?_swap rightValue
  cases isNull : leftValue.isNull || rightValue.isNull with
  | true =>
      have isNullBack := (Bool.or_comm _ _).trans isNull
      refine .isNull (eitherNull_iff.mpr isNull) (fun test => ?_) fun test => ?_
      · rw [forward, compareValues_of_isNull isNull]
      · rw [backward, compareValues_of_isNull isNullBack]
  | false =>
      have presentBack := (Bool.or_comm _ _).trans isNull
      cases compared : leftValue.sqlOrder? rightValue with
      | none =>
          rw [compared, Option.map_none] at reversed
          refine
            .fails (unorderedFault leftValue rightValue)
              (unorderedFault rightValue leftValue) (fun test => ?_) fun test => ?_
          · rw [forward, compareValues_of_unordered isNull compared]
          · rw [backward, compareValues_of_unordered presentBack reversed]
      | some order =>
          rw [compared, Option.map_some] at reversed
          refine .ordered order ?_ (fun test => ?_) fun test => ?_
          · rw [eitherNull_iff, isNull]
            exact Bool.false_ne_true
          · rw [forward, compareValues_of_ordered isNull compared]
          · rw [backward, compareValues_of_ordered presentBack reversed]

/-- Each comparison of two operands in a row has one of the outcomes. -/
theorem outcome (left right : Operand) (row : Row) : Outcome left right row := by
  cases leftFound : left.valueIn row with
  | error fault =>
      cases rightFound : right.valueIn row with
      | error other =>
          exact
            .fails fault other (toPredicate_of_left leftFound)
              (toPredicate_of_left rightFound)
      | ok rightValue =>
          exact
            .fails fault fault (toPredicate_of_left leftFound)
              (toPredicate_of_right rightFound leftFound)
  | ok leftValue =>
      cases rightFound : right.valueIn row with
      | error other =>
          exact
            .fails other other (toPredicate_of_right leftFound rightFound)
              (toPredicate_of_left rightFound)
      | ok rightValue => exact outcome_of_found leftFound rightFound

end Operands

/-- Results that are both null, the same failure, or opposite truths. -/
inductive Opposed : Except Fault Value → Except Fault Value → Prop where
  | null : Opposed (.ok .null) (.ok .null)
  | failed (fault : Fault) : Opposed (.error fault) (.error fault)
  | truths (truth : Bool) : Opposed (.ok (.boolean truth)) (.ok (.boolean !truth))

/-- Results that are the same value, or both failures. -/
inductive Mirrored : Except Fault Value → Except Fault Value → Prop where
  | value (value : Value) : Mirrored (.ok value) (.ok value)
  | failed (fault other : Fault) : Mirrored (.error fault) (.error other)

variable (comparison : Comparison) (row : Row)

/-- A comparison and its complement are opposed. -/
theorem opposed_complement :
    Opposed (comparison.toPredicate row)
      (comparison.complement.toPredicate row) := by
  obtain ⟨left, test, right⟩ := comparison
  cases outcome left right row with
  | fails fault _ forward _ =>
      rw [complement, asking, forward, forward]
      exact .failed fault
  | isNull _ forward _ =>
      rw [complement, asking, forward, forward]
      exact .null
  | ordered order _ forward _ =>
      rw [complement, asking, forward, forward, OrderTest.holds_complement]
      exact .truths (test.holds order)

/-- A comparison and its mirror image answer alike, up to the wording of faults. -/
theorem mirrored_mirror :
    Mirrored (comparison.toPredicate row) (comparison.mirror.toPredicate row) := by
  obtain ⟨left, test, right⟩ := comparison
  cases outcome left right row with
  | fails fault other forward backward =>
      rw [mirror, forward, backward]
      exact .failed fault other
  | isNull _ forward backward =>
      rw [mirror, forward, backward]
      exact .value .null
  | ordered order _ forward backward =>
      rw [mirror, forward, backward, OrderTest.holds_mirror]
      exact .value (.boolean (test.holds order))

/-- At most holds exactly if below or equal does. -/
theorem atMost_iff_below_or_equal :
    (comparison.asking .atMost).toPredicate row = .ok (.boolean true) ↔
      (comparison.asking .below).toPredicate row = .ok (.boolean true) ∨
        (comparison.asking .equal).toPredicate row = .ok (.boolean true) := by
  obtain ⟨left, test, right⟩ := comparison
  cases outcome left right row with
  | fails fault _ forward _ => simp [asking, forward]
  | isNull _ forward _ => simp [asking, forward]
  | ordered order _ forward _ =>
      simp only [asking, forward, Except.ok.injEq, Value.boolean.injEq,
        OrderTest.holds_atMost, Bool.or_eq_true]

/--
A row without a null operand passes a comparison or its complement, unless both
fail.
-/
theorem accepts_complement :
    ¬ comparison.left.EitherNull comparison.right row ∧
        (∃ passes : Bool,
          comparison.toResiduals.accepts row = .ok passes ∧
            comparison.complement.toResiduals.accepts row = .ok !passes) ∨
      comparison.left.EitherNull comparison.right row ∧
        comparison.toResiduals.accepts row = .ok false ∧
          comparison.complement.toResiduals.accepts row = .ok false ∨
      ∃ fault,
        comparison.toResiduals.accepts row = .error fault ∧
          comparison.complement.toResiduals.accepts row = .error fault := by
  obtain ⟨left, test, right⟩ := comparison
  simp only [toResiduals, complement, asking, Residuals.accepts_singleton]
  cases outcome left right row with
  | fails fault _ forward _ =>
      right
      right
      rw [forward, forward]
      exact ⟨fault, rfl, rfl⟩
  | isNull eitherNull forward _ =>
      right
      left
      rw [forward, forward]
      exact ⟨eitherNull, rfl, rfl⟩
  | ordered order present forward _ =>
      left
      rw [forward, forward, OrderTest.holds_complement]
      exact ⟨present, test.holds order, rfl, rfl⟩

/--
The laws of three-valued comparison: the complement is null or fails alike and is
otherwise opposite, the mirrored comparison says the same, at most is below or
equal, and as a residual predicate exactly one of a comparison and its complement
lets a row pass, unless an operand is null or both fail alike.
-/
theorem three_valued_laws :
    Opposed (comparison.toPredicate row) (comparison.complement.toPredicate row) ∧
      Mirrored (comparison.toPredicate row) (comparison.mirror.toPredicate row) ∧
      ((comparison.asking .atMost).toPredicate row = .ok (.boolean true) ↔
        (comparison.asking .below).toPredicate row = .ok (.boolean true) ∨
          (comparison.asking .equal).toPredicate row = .ok (.boolean true)) ∧
      (¬ comparison.left.EitherNull comparison.right row ∧
          (∃ passes : Bool,
            comparison.toResiduals.accepts row = .ok passes ∧
              comparison.complement.toResiduals.accepts row = .ok !passes) ∨
        comparison.left.EitherNull comparison.right row ∧
          comparison.toResiduals.accepts row = .ok false ∧
            comparison.complement.toResiduals.accepts row = .ok false ∨
        ∃ fault,
          comparison.toResiduals.accepts row = .error fault ∧
            comparison.complement.toResiduals.accepts row = .error fault) :=
  ⟨comparison.opposed_complement row, comparison.mirrored_mirror row,
    comparison.atMost_iff_below_or_equal row, comparison.accepts_complement row⟩

end Comparison

end StreamJoin
