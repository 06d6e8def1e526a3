import StreamJoin.Proofs.ComparisonLaws
import StreamJoin.Proofs.PlanKinds
import StreamJoin.Proofs.WholeRun

namespace StreamJoin

/-!
# When a comparison fails

A comparison suits a row if its columns are inside the row and its values are null
or of types with a common order.  Such a comparison still fails if both values are
present and one of them is marked as no number, and it fails in no other case.  A
join whose residual predicates are comparisons that suit its candidates fails, as
long as they meet no such value, exactly when the same join without predicates
fails: the two are in lockstep, whatever is asked of them.
-/

/-- Whether a row has the column that an operand asks for. -/
def Operand.Within (operand : Operand) (row : Row) : Prop :=
  match operand with
  | .literal _ => True
  | .column index => index < row.length

instance (operand : Operand) (row : Row) : Decidable (operand.Within row) :=
  match operand with
  | .literal _ => inferInstanceAs (Decidable True)
  | .column index => inferInstanceAs (Decidable (index < row.length))

/-- The value of an operand in a row that has its column. -/
def Operand.value? (operand : Operand) (row : Row) : Option Value :=
  (operand.valueIn row).toOption

/-- An operand within the row has a value there. -/
theorem Operand.exists_valueIn
    {operand : Operand}
    {row : Row}
    (within : operand.Within row) :
    ∃ value, operand.valueIn row = .ok value ∧ operand.value? row = some value := by
  cases operand with
  | literal value => exact ⟨value, rfl, rfl⟩
  | column index =>
      have found :
          (Operand.column index).valueIn row = .ok (row.get ⟨index, within⟩) := by
        simp only [valueIn, row.getElem?_eq_getElem within]
        rfl
      exact ⟨_, found, congrArg Except.toOption found⟩

namespace Value

variable {left right : Value}

/-- A null is not comparable with anything. -/
theorem not_comparable_of_isNull (isNull : (left.isNull || right.isNull) = true) :
    ¬ left.Comparable right := by
  rintro ⟨family, leftFamily, rightFamily⟩
  rcases Bool.or_eq_true_iff.mp isNull with leftNull | rightNull
  · rw [isNull_iff_eq_null.mp leftNull] at leftFamily
    cases leftFamily
  · rw [isNull_iff_eq_null.mp rightNull] at rightFamily
    cases rightFamily

/--
Values have no order if one is null, their types have none, or one is marked as no
number.
-/
theorem sqlOrder?_eq_none_iff :
    left.sqlOrder? right = none ↔
      (left.isNull || right.isNull) = true ∨ ¬ left.Comparable right ∨
        (left.isNaN || right.isNaN) = true := by
  rw [← Option.not_isSome_iff_eq_none, Option.isSome_iff_exists,
    exists_sqlOrder?_iff, ← Bool.or_eq_false_iff, not_and_or, Bool.not_eq_false]
  constructor
  · exact .inr
  · rintro (isNull | unordered)
    · exact .inl (not_comparable_of_isNull isNull)
    · exact unordered

end Value

namespace Comparison

variable {comparison : Comparison} {row : Row}

/--
A comparison whose operands are found in a row and have values that are null or
comparable.
-/
structure SuitedTo (comparison : Comparison) (row : Row) : Prop where
  leftWithin : comparison.left.Within row
  rightWithin : comparison.right.Within row
  comparable :
    ∀ left ∈ comparison.left.value? row, ∀ right ∈ comparison.right.value? row,
      (left.isNull || right.isNull) = true ∨ left.Comparable right

instance (comparison : Comparison) (row : Row) :
    Decidable (comparison.SuitedTo row) :=
  decidable_of_iff
    (comparison.left.Within row ∧ comparison.right.Within row ∧
      ∀ left ∈ comparison.left.value? row, ∀ right ∈ comparison.right.value? row,
        (left.isNull || right.isNull) = true ∨ left.Comparable right)
    ⟨fun ⟨leftWithin, rightWithin, comparable⟩ =>
        ⟨leftWithin, rightWithin, comparable⟩,
      fun suited => ⟨suited.leftWithin, suited.rightWithin, suited.comparable⟩⟩

/--
Whether both operands have values that are not null, and one of them is marked as no
number.
-/
def MeetsNaN (comparison : Comparison) (row : Row) : Prop :=
  ∃ left ∈ comparison.left.value? row, ∃ right ∈ comparison.right.value? row,
    (left.isNull || right.isNull) = false ∧ (left.isNaN || right.isNaN) = true

instance (comparison : Comparison) (row : Row) :
    Decidable (comparison.MeetsNaN row) :=
  inferInstanceAs (Decidable (∃ left ∈ comparison.left.value? row, _))

/-- What becomes of a comparison of two values that are null or comparable. -/
inductive Evaluates (test : OrderTest) (left right : Value) :
    Except Fault Value → Prop where
  | null
      (isNull : (left.isNull || right.isNull) = true) :
      Evaluates test left right (.ok .null)
  | notANumber
      (present : (left.isNull || right.isNull) = false)
      (isNaN : (left.isNaN || right.isNaN) = true) :
      Evaluates test left right (.error (unorderedFault left right))
  | ordered
      {order : Ordering}
      (present : (left.isNull || right.isNull) = false)
      (areNumbers : (left.isNaN || right.isNaN) = false)
      (compared : left.sqlOrder? right = some order) :
      Evaluates test left right (.ok (.boolean (test.holds order)))

/-- Null or comparable operands are compared without a fault. -/
theorem evaluates_compareValues
    {left right : Value}
    (comparable : (left.isNull || right.isNull) = true ∨ left.Comparable right)
    (test : OrderTest) :
    Evaluates test left right (compareValues test left right) := by
  cases isNull : left.isNull || right.isNull with
  | true =>
      rw [compareValues_of_isNull isNull]
      exact .null isNull
  | false =>
      have comparable :=
        comparable.resolve_left (by rw [isNull]; exact Bool.false_ne_true)
      cases isNaN : left.isNaN || right.isNaN with
      | true =>
          have unordered := Value.sqlOrder?_eq_none_iff.mpr (.inr (.inr isNaN))
          rw [compareValues_of_unordered isNull unordered]
          exact .notANumber isNull isNaN
      | false =>
          obtain ⟨order, compared⟩ :=
            Value.exists_sqlOrder?_iff.mpr
              ⟨comparable, Bool.or_eq_false_iff.mp isNaN⟩
          rw [compareValues_of_ordered isNull compared]
          exact .ordered isNull isNaN compared

/--
A comparison that suits a row finds its values there, and they decide what becomes
of it.
-/
theorem evaluates_toPredicate (suited : comparison.SuitedTo row) :
    ∃ left right,
      comparison.left.value? row = some left ∧
        comparison.right.value? row = some right ∧
        Evaluates comparison.test left right (comparison.toPredicate row) := by
  obtain ⟨left, leftFound, leftValue⟩ := Operand.exists_valueIn suited.leftWithin
  obtain ⟨right, rightFound, rightValue⟩ :=
    Operand.exists_valueIn suited.rightWithin
  refine ⟨left, right, leftValue, rightValue, ?_⟩
  rw [toPredicate_of_found leftFound rightFound]
  exact
    evaluates_compareValues (suited.comparable left leftValue right rightValue) _

/--
A comparison that suits a row and meets no word that is no number is true, false or
null.
-/
theorem exists_truth
    (suited : comparison.SuitedTo row)
    (avoidsNaN : ¬ comparison.MeetsNaN row) :
    ∃ value truth,
      comparison.toPredicate row = .ok value ∧ value.truth = .ok truth := by
  obtain ⟨left, right, leftValue, rightValue, evaluates⟩ :=
    evaluates_toPredicate suited
  generalize comparison.toPredicate row = result at evaluates
  cases evaluates with
  | null => exact ⟨_, _, rfl, rfl⟩
  | notANumber present isNaN =>
      exact absurd ⟨left, leftValue, right, rightValue, present, isNaN⟩ avoidsNaN
  | ordered => exact ⟨_, _, rfl, rfl⟩

end Comparison

namespace Residuals

/-- Predicates that all have a truth are decided. -/
theorem exists_accepts
    {predicates : List Predicate}
    {row : Row}
    (truths :
      ∀ predicate ∈ predicates,
        ∃ value truth, predicate row = .ok value ∧ value.truth = .ok truth) :
    ∃ passes, (Residuals.mk predicates).accepts row = .ok passes := by
  unfold accepts
  induction predicates with
  | nil => exact ⟨true, rfl⟩
  | cons predicate rest inductionHypothesis =>
      obtain ⟨value, truth, evaluated, hasTruth⟩ :=
        truths predicate List.mem_cons_self
      have later :=
        inductionHypothesis fun other member =>
          truths other (List.mem_cons_of_mem _ member)
      simp only [allHold, evaluated, hasTruth]
      cases truth with
      | false => exact ⟨false, rfl⟩
      | true => exact later

end Residuals

/-- The same description with given comparisons as its residual predicates. -/
def JoinSpec.comparing (spec : JoinSpec) (comparisons : List Comparison) :
    JoinSpec :=
  { spec with residuals := ⟨comparisons.map Comparison.toPredicate⟩ }

namespace JoinPlan

/-- The same plan without residual predicates. -/
def withoutResiduals (plan : JoinPlan) : JoinPlan :=
  { plan with residuals := .none }

variable {plan : JoinPlan} {leftRow rightRow : Row → Prop}

/--
If no candidate fails, a plan finds the failures that it finds without predicates.
-/
theorem faultsAlike_withoutResiduals
    (evaluates :
      ∀ left right, leftRow left → rightRow right → plan.sameKey left right = true →
        plan.residualFault? (pair left right) = none) :
    plan.FaultsAlike plan.withoutResiduals leftRow rightRow where
  rightFault?_eq _ _ _ _ := rfl
  leftFault?_eq rights block rightRows leftRows := by
    have nothingFails : plan.pairFault? rights block.rows = none :=
      pairFault?_of_evaluates fun _ _ left leftMember right rightMember =>
        evaluates left right (leftRows left leftMember)
          (rightRows right rightMember)
    have nothingEvaluated :
        plan.withoutResiduals.pairFault? rights block.rows = none := by
      refine pairFault?_of_evaluates fun _ _ left _ right _ _ => ?_
      have noResiduals : plan.withoutResiduals.residuals.isEmpty = true := rfl
      simp only [residualFault?, accepts_of_isEmpty noResiduals]
    simp only [leftFault?, nothingFails, nothingEvaluated]
    rfl

/--
Comparisons that suit a candidate and meet no word that is no number do not fail on
it.
-/
theorem residualFault?_of_comparisons
    {comparisons : List Comparison}
    {candidate : Row}
    (residuals_eq : plan.residuals = ⟨comparisons.map Comparison.toPredicate⟩)
    (harmless :
      ∀ comparison ∈ comparisons,
        comparison.SuitedTo candidate ∧ ¬ comparison.MeetsNaN candidate) :
    plan.residualFault? candidate = none := by
  have truths :
      ∀ predicate ∈ comparisons.map Comparison.toPredicate,
        ∃ value truth,
          predicate candidate = .ok value ∧ value.truth = .ok truth := by
    intro predicate member
    obtain ⟨comparison, listed, rfl⟩ := List.mem_map.mp member
    obtain ⟨suited, avoidsNaN⟩ := harmless comparison listed
    exact Comparison.exists_truth suited avoidsNaN
  obtain ⟨passes, accepted⟩ := Residuals.exists_accepts truths
  simp only [residualFault?, residuals_eq, accepted]

end JoinPlan

namespace BroadcastJoin

variable {Left Right : Type}

/-- A pull that finishes a left block does not answer a failure. -/
theorem Finishes.not_failed
    {plan : JoinPlan}
    {rights lefts : List Row}
    {block : Block}
    {next : BroadcastJoin Left Right}
    {cause : Fault}
    (finishes : Finishes plan rights lefts block next) :
    block ≠ .failed cause := by
  rcases finishes.block_eq with ⟨_, rfl⟩ | ⟨_, swept, _, rfl⟩ <;> nofun

variable [Operator Left] [Drainable Right]

/-- A row of each child, with the same key. -/
def Candidate (join : BroadcastJoin Left Right) (row : Row) : Prop :=
  ∃ leftRow rightRow,
    Operator.HandsOut join.left leftRow ∧ Operator.HandsOut join.right rightRow ∧
      join.state.plan.sameKey leftRow rightRow = true ∧
      JoinPlan.pair leftRow rightRow = row

/-- Two joins that fail at the same requests, with the same causes. -/
def FailsAlike (join other : BroadcastJoin Left Right) : Prop :=
  ∀ calls cause,
    (Operator.pull (Operator.afterCalls join calls)).block = .failed cause ↔
      (Operator.pull (Operator.afterCalls other calls)).block = .failed cause

/-- Joins in lockstep fail together. -/
theorem Lockstep.failed_iff
    {first second : JoinPlan}
    {leftRow rightRow : Row → Prop}
    {join other : BroadcastJoin Left Right}
    (alike : first.FaultsAlike second leftRow rightRow)
    (lockstep : Lockstep first second leftRow rightRow join other)
    (cause : Fault) :
    join.pull.block = .failed cause ↔ other.pull.block = .failed cause := by
  cases active : join.state.isActive with
  | false => rw [(lockstep.repeats active).1]
  | true =>
      cases (stepsBeside_pull alike lockstep active).answers with
      | same _ _ block_eq => rw [block_eq]
      | probed _ _ _ _ block_eq otherBlock_eq =>
          rw [block_eq, otherBlock_eq]
          exact ⟨nofun, nofun⟩
      | finished _ _ _ finishes otherFinishes =>
          exact ⟨fun failed => absurd failed finishes.not_failed,
            fun failed => absurd failed otherFinishes.not_failed⟩

variable {left : Left} {right : Right}

/-- Plans whose rows fail alike make joins that fail alike. -/
theorem failsAlike_of_faultsAlike
    {first second : JoinPlan}
    (alike :
      first.FaultsAlike second (Operator.HandsOut left) (Operator.HandsOut right)) :
    FailsAlike ⟨.ofPlan first, left, right⟩ ⟨.ofPlan second, left, right⟩ := by
  intro calls cause
  have start :
      Lockstep first second (Operator.HandsOut left) (Operator.HandsOut right)
        ⟨.ofPlan first, left, right⟩ ⟨.ofPlan second, left, right⟩ :=
    lockstep_ofPlan (fun _ handsOut => handsOut) fun _ handsOut => handsOut
  exact (lockstep_afterCalls alike start calls).failed_iff alike cause

/-- A join whose comparisons are harmless fails as the join without them does. -/
theorem failsAlike_comparing
    {spec : JoinSpec}
    {options : JoinOptions}
    {order : BucketOrder}
    {join : BroadcastJoin Left Right}
    {comparisons : List Comparison}
    (accepted :
      ofSpec left right (spec.comparing comparisons) options order = .ok join)
    (harmless :
      ∀ row, join.Candidate row →
        ∀ comparison ∈ comparisons,
          comparison.SuitedTo row ∧ ¬ comparison.MeetsNaN row) :
    ∃ bare,
      ofSpec left right (spec.comparing []) options order = .ok bare ∧
        join.FailsAlike bare := by
  obtain ⟨plan, checked, rfl⟩ := exists_plan_of_ofSpec accepted
  have describes := JoinPlan.ofSpec_eq_ok_iff.mp checked
  have bareDescribes :
      plan.withoutResiduals.Describes (spec.comparing []) options order :=
    { describes with residuals_eq := rfl }
  refine ⟨⟨.ofPlan plan.withoutResiduals, left, right⟩, ?_, ?_⟩
  · rw [ofSpec, JoinPlan.ofSpec_eq_ok_iff.mpr bareDescribes]
    rfl
  · apply failsAlike_of_faultsAlike
    apply JoinPlan.faultsAlike_withoutResiduals
    intro leftRow rightRow leftComes rightComes sameKey
    apply JoinPlan.residualFault?_of_comparisons describes.residuals_eq.symm
    exact harmless _ ⟨leftRow, rightRow, leftComes, rightComes, sameKey, rfl⟩

/--
Two values have no order exactly if one is null, their types have no common order,
or one is marked as no number.  So a comparison that suits a row is null, or it
fails because both values are present and one is marked as no number, or it is true
or false.  A join whose residual predicates are comparisons that suit its candidates
fails as it does without them, unless the comparisons meet a word that is no number.
-/
theorem comparisons_fail_at_nan_only
    (left : Left)
    (right : Right)
    (spec : JoinSpec)
    (options : JoinOptions)
    (order : BucketOrder)
    (comparisons : List Comparison) :
    (∀ first second : Value,
      first.sqlOrder? second = none ↔
        (first.isNull || second.isNull) = true ∨ ¬ first.Comparable second ∨
          (first.isNaN || second.isNaN) = true) ∧
    (∀ (comparison : Comparison) (row : Row),
      comparison.SuitedTo row →
        ∃ first second,
          comparison.left.value? row = some first ∧
            comparison.right.value? row = some second ∧
            Comparison.Evaluates comparison.test first second
              (comparison.toPredicate row)) ∧
    ∀ join,
      ofSpec left right (spec.comparing comparisons) options order = .ok join →
      (∀ row, join.Candidate row →
        ∀ comparison ∈ comparisons,
          comparison.SuitedTo row ∧ ¬ comparison.MeetsNaN row) →
        ∃ bare,
          ofSpec left right (spec.comparing []) options order = .ok bare ∧
            join.FailsAlike bare :=
  ⟨fun _ _ => Value.sqlOrder?_eq_none_iff,
    fun _ _ => Comparison.evaluates_toPredicate, fun _ => failsAlike_comparing⟩

/-- A key with a measure, which may be marked as no number. -/
def measureSchema : Schema := ⟨[⟨"key", .int⟩, ⟨"measure", .double⟩]⟩

/-- Measures are joined by their keys. -/
def measureSpec : JoinSpec :=
  .equiJoin .inner measureSchema measureSchema ⟨[0]⟩ ⟨[0]⟩

/-- No left measure exceeds the right one, and no right one is a given number. -/
def measureComparisons : List Comparison :=
  [.columns 1 .atMost 3, .columnLiteral 3 .unequal (.long 9007199254740993)]

/-- The plan of the join of measures with its comparisons. -/
def measurePlan : JoinPlan :=
  (JoinPlan.ofSpec (measureSpec.comparing measureComparisons) .default).toOption.get
    rfl

/-- A small join of measures, of which one is marked as no number. -/
def measureJoin (rights : List Block) : BroadcastJoin Replay Replay :=
  ⟨.ofPlan measurePlan,
    .ofBlocks
      [.ofRows
          [[.int 1, .double 0x4014000000000000],
            [.int 2, .double 0x7ff8000000000000]]
          measureSchema,
        .failed (.inputFailed "later")],
    .ofBlocks rights⟩

/--
Without a partner that is present, the measure that is no number is compared with
nothing.
-/
theorem comparisons_fail_at_nan_only_sample :
    let join :=
      measureJoin
        [.ofRows
          [[.int 1, .double 0x401c000000000000], [.int 2, .null], [.int 1, .null]]
          measureSchema]
    ∃ bare,
      ofSpec join.left join.right (measureSpec.comparing []) .default .byKey =
          .ok bare ∧
        join.FailsAlike bare := by
  intro join
  have accepted :
      ofSpec join.left join.right (measureSpec.comparing measureComparisons)
          .default .byKey =
        .ok join := rfl
  apply (comparisons_fail_at_nan_only _ _ _ _ _ _).2.2 join accepted
  have harmless :
      ∀ leftRow ∈ rowsOf (join.left.queued.takeWhile fun block => !block.isEnd),
        ∀ rightRow ∈ rowsOf (join.right.queued.takeWhile fun block => !block.isEnd),
          measurePlan.sameKey leftRow rightRow = true →
            ∀ comparison ∈ measureComparisons,
              comparison.SuitedTo (JoinPlan.pair leftRow rightRow) ∧
                ¬ comparison.MeetsNaN (JoinPlan.pair leftRow rightRow) := by
    decide +kernel
  rintro row ⟨leftRow, rightRow, leftComes, rightComes, sameKey, rfl⟩
  exact
    harmless leftRow (Replay.mem_rowsOf_of_handsOut leftComes) rightRow
      (Replay.mem_rowsOf_of_handsOut rightComes) sameKey

/--
Two numbers are comparable but have no order, because one is marked as no number,
and a comparison of them fails.  With it a join that has the two as a candidate
fails for ever, while the join without predicates answers them.
-/
theorem comparison_fails_at_nan :
    let unknown := Value.double 0x7ff8000000000000
    let one := Value.double 0x3ff0000000000000
    let comparison := Comparison.columns 0 .equal 1
    let cause := Fault.predicateFailed "cannot compare NaN with 1"
    let join := measureJoin [.ofRows [[.int 2, one]] measureSchema]
    unknown.Comparable one ∧ unknown.sqlOrder? one = none ∧
      comparison.SuitedTo [unknown, one] ∧
      comparison.toPredicate [unknown, one] = .error cause ∧
      Operator.Answers join [] (.failed cause) ∧
      ∃ bare,
        ofSpec join.left join.right (measureSpec.comparing []) .default .byKey =
            .ok bare ∧
          (Operator.pull bare).block =
            .ofRows [[.int 2, unknown, .int 2, one]] measurePlan.resultSchema := by
  intro unknown one comparison cause join
  refine
    ⟨by decide, by decide +kernel, by decide, by decide +kernel, ?_, _, rfl,
      by decide +kernel⟩
  have fails :
      measurePlan.firstFault? join.right.queued join.left.queued = some cause := by
    decide +kernel
  exact
    answers_ofPlan_of_fault (Replay.follows_queued _) (Replay.follows_queued _)
      fails

end BroadcastJoin

end StreamJoin
