import StreamJoin.Proofs.KeyComparison
import StreamJoin.Proofs.LockstepJoins
import StreamJoin.Proofs.PlanChecks

namespace StreamJoin

/-!
# Keys or comparisons

A join that finds its pairs by key can be written as a join over the cross product,
whose residual predicates begin with one comparison for each pair of key columns.
The cross product keeps all right rows in the one bucket of the empty key and
evaluates its predicates on every pair of rows, while the keyed join evaluates them
on one bucket only.

For kinds that look for pairs, and for rows with values of one exact type in each
key column, the two are in lockstep: the comparisons reject exactly the pairs that
the table keeps apart, and reject them before any other predicate is evaluated.
-/

/-- The cross product of a description, with the keys as comparisons in front. -/
def JoinSpec.crossed (spec : JoinSpec) (leftKeys rightKeys : KeyColumns) :
    JoinSpec :=
  { spec with
    leftKeys := some ⟨[]⟩
    rightKeys := some ⟨[]⟩
    residuals :=
      ⟨keyComparisons spec.leftSchema.width leftKeys rightKeys ++
        spec.residuals.predicates⟩ }

namespace JoinPlan

/-- The cross product of a plan, with the keys as comparisons in front. -/
def crossed (plan : JoinPlan) (order : BucketOrder) : JoinPlan :=
  { plan with
    leftKeys := ⟨[]⟩
    rightKeys := ⟨[]⟩
    residuals :=
      ⟨keyComparisons plan.leftWidth plan.leftKeys plan.rightKeys ++
        plan.residuals.predicates⟩
    bucketOrder := order
    arity_eq := rfl
    leftKeys_present := rfl
    rightKeys_present := rfl }

/--
A left row of the declared width with values of given types in the key columns.
-/
def LeftTyped (plan : JoinPlan) (types : List ColumnType) (row : Row) : Prop :=
  row.length = plan.leftWidth ∧ plan.leftKeys.Typed types row

/--
A right row of the declared width with values of given types in the key columns.
-/
def RightTyped (plan : JoinPlan) (types : List ColumnType) (row : Row) : Prop :=
  row.length = plan.rightWidth ∧ plan.rightKeys.Typed types row

/-- The cross product of an accepted description is accepted. -/
theorem describes_crossed
    {plan : JoinPlan}
    {spec : JoinSpec}
    {options : JoinOptions}
    {order : BucketOrder}
    (describes : plan.Describes spec options order)
    (crossOrder : BucketOrder) :
    (plan.crossed crossOrder).Describes (spec.crossed plan.leftKeys plan.rightKeys)
      options crossOrder where
  kind_eq := describes.kind_eq
  leftKeys_eq := rfl
  rightKeys_eq := rfl
  residuals_eq := by
    simp only [JoinSpec.crossed, crossed, describes.leftWidth_eq,
      describes.residuals_eq]
  resultSchema_eq := describes.resultSchema_eq
  leftWidth_eq := describes.leftWidth_eq
  rightWidth_eq := describes.rightWidth_eq
  options_eq := describes.options_eq
  order_eq := rfl

variable {plan : JoinPlan} {order : BucketOrder} {types : List ColumnType}
variable {left right : Row} {lefts rights : List Row}

/-- In a cross product all rows have the same key. -/
theorem sameKey_crossed (left right : Row) :
    (plan.crossed order).sameKey left right = true :=
  decide_eq_true rfl

/--
The comparisons in front reject a pair with different keys, before anything can
fail.
-/
theorem accepts_crossed
    (order : BucketOrder)
    (exact : ∀ type ∈ types, type.isExact = true)
    (leftTyped : plan.LeftTyped types left)
    (rightTyped : plan.RightTyped types right) :
    (plan.crossed order).residuals.accepts (pair left right) =
      if plan.sameKey left right = true then
        plan.residuals.accepts (pair left right)
      else
        .ok false := by
  obtain ⟨leftWidth, leftKeyTyped⟩ := leftTyped
  have decided :=
    Residuals.allHold_keyComparisons exact leftKeyTyped rightTyped.2
      plan.residuals.predicates
  rw [leftWidth] at decided
  simp only [Residuals.accepts, crossed, pair, decided, sameKey, decide_eq_true_eq]
  by_cases agree : plan.leftKeys.key left = plan.rightKeys.key right
  · simp only [agree, if_true]
  · simp only [agree, Ne.symm agree, if_false]

/-- Two rows pair in the cross product exactly if they pair in the keyed join. -/
theorem pairs_crossed
    (exact : ∀ type ∈ types, type.isExact = true)
    (leftTyped : plan.LeftTyped types left)
    (rightTyped : plan.RightTyped types right) :
    (plan.crossed order).pairs left right = plan.pairs left right := by
  have accepted := accepts_crossed order exact leftTyped rightTyped
  simp only [pairs, sameKey_crossed, survives, accepted, Bool.true_and]
  by_cases agree : plan.sameKey left right = true
  · simp only [agree, if_true, Bool.true_and]
  · simp only [Bool.not_eq_true] at agree
    simp only [agree, Bool.false_eq_true, if_false, Bool.false_and]

/-- In the cross product a pair fails only if its keys are equal. -/
theorem residualFault?_crossed
    (exact : ∀ type ∈ types, type.isExact = true)
    (leftTyped : plan.LeftTyped types left)
    (rightTyped : plan.RightTyped types right) :
    (plan.crossed order).residualFault? (pair left right) =
      if plan.sameKey left right = true then
        plan.residualFault? (pair left right)
      else
        none := by
  have accepted := accepts_crossed order exact leftTyped rightTyped
  simp only [residualFault?, accepted]
  by_cases agree : plan.sameKey left right = true
  · simp only [agree, if_true]
  · simp only [agree, Bool.false_eq_true, if_false]

/-- Searches that find the same in every row find the same first. -/
theorem findSome?_congr_of_mem
    {rows : List Row}
    {find other : Row → Option Fault}
    (same : ∀ row ∈ rows, find row = other row) :
    rows.findSome? find = rows.findSome? other := by
  have mapped := congrArg (List.findSome? id) (List.map_congr_left same)
  rwa [List.findSome?_map, List.findSome?_map] at mapped

/--
Searching the rows that pass a test is searching all rows with the test inside.
-/
theorem findSome?_filter
    (rows : List Row)
    (keep : Row → Bool)
    (find : Row → Option Fault) :
    (rows.filter keep).findSome? find =
      rows.findSome? fun row => if keep row = true then find row else none := by
  induction rows with
  | nil => rfl
  | cons row rest inductionHypothesis =>
      by_cases kept : keep row = true
      · simp only [List.filter_cons, kept, if_true, List.findSome?_cons,
          inductionHypothesis]
      · simp only [List.filter_cons, kept, if_false, List.findSome?_cons,
          inductionHypothesis, Bool.false_eq_true]

/-- A left row meets the same failure in both joins. -/
theorem rowFault?_crossed
    (exact : ∀ type ∈ types, type.isExact = true)
    (leftTyped : plan.LeftTyped types left)
    (rightsTyped : ∀ row ∈ rights, plan.RightTyped types row) :
    (plan.crossed order).rowFault? rights left = plan.rowFault? rights left := by
  have sameSearch :
      (rights.filter ((plan.crossed order).sameKey left)).findSome?
          (fun right => (plan.crossed order).residualFault? (pair left right)) =
        (rights.filter (plan.sameKey left)).findSome?
          fun right => plan.residualFault? (pair left right) := by
    rw [findSome?_filter, findSome?_filter]
    apply findSome?_congr_of_mem
    intro right member
    simp only [sameKey_crossed, if_true]
    exact residualFault?_crossed exact leftTyped (rightsTyped right member)
  simp only [rowFault?, sameSearch]
  rfl

/-- Left rows meet the same first failure in both joins. -/
theorem pairFault?_crossed
    (exact : ∀ type ∈ types, type.isExact = true)
    (leftsTyped : ∀ row ∈ lefts, plan.LeftTyped types row)
    (rightsTyped : ∀ row ∈ rights, plan.RightTyped types row) :
    (plan.crossed order).pairFault? rights lefts =
      plan.pairFault? rights lefts := by
  apply findSome?_congr_of_mem
  intro left member
  exact rowFault?_crossed exact (leftsTyped left member) rightsTyped

/-- A left row is answered alike in both joins. -/
theorem nestedRow_crossed
    (pairing : plan.kind.presence? = none)
    (exact : ∀ type ∈ types, type.isExact = true)
    (leftTyped : plan.LeftTyped types left)
    (rightsTyped : ∀ row ∈ rights, plan.RightTyped types row) :
    (plan.crossed order).nestedRow rights left = plan.nestedRow rights left := by
  have samePairs :
      (plan.crossed order).pairsOf rights left = plan.pairsOf rights left := by
    simp only [pairsOf]
    congr 1
    apply List.filter_congr
    intro right member
    exact pairs_crossed exact leftTyped (rightsTyped right member)
  have sameKind : (plan.crossed order).kind = plan.kind := rfl
  have samePadding : (plan.crossed order).padRight left = plan.padRight left := rfl
  simp only [nestedRow, samePairs, sameKind, samePadding]
  cases kind : plan.kind <;> simp_all [JoinKind.presence?]

/-- Left rows are answered alike in both joins. -/
theorem nestedRows_crossed
    (pairing : plan.kind.presence? = none)
    (exact : ∀ type ∈ types, type.isExact = true)
    (leftsTyped : ∀ row ∈ lefts, plan.LeftTyped types row)
    (rightsTyped : ∀ row ∈ rights, plan.RightTyped types row) :
    (plan.crossed order).nestedRows rights lefts =
      plan.nestedRows rights lefts := by
  apply List.flatMap_congr
  intro left member
  exact nestedRow_crossed pairing exact (leftsTyped left member) rightsTyped

/-- The sweep of both joins has the same rows in the same order. -/
theorem sweptRows_crossed
    (exact : ∀ type ∈ types, type.isExact = true)
    (leftsTyped : ∀ row ∈ lefts, plan.LeftTyped types row)
    (rightsTyped : ∀ row ∈ rights, plan.RightTyped types row) :
    (plan.crossed order).sweptRows rights lefts = plan.sweptRows rights lefts := by
  have sameUnpaired :
      (plan.crossed order).unpairedRights lefts rights =
        plan.unpairedRights lefts rights := by
    apply List.filter_congr
    intro right rightMember
    have samePartners :
        lefts.map (fun left => (plan.crossed order).pairs left right) =
          lefts.map fun left => plan.pairs left right := by
      apply List.map_congr_left
      intro left leftMember
      exact
        pairs_crossed exact (leftsTyped left leftMember)
          (rightsTyped right rightMember)
    have sameAny := congrArg (List.any · id) samePartners
    simp only [List.any_map, Function.id_comp] at sameAny
    rw [sameAny]
  simp only [sweptRows, sameUnpaired]
  rfl

/-- The cross product agrees with the keyed join about all typed rows. -/
theorem agrees_crossed
    (order : BucketOrder)
    (pairing : plan.kind.presence? = none)
    (exact : ∀ type ∈ types, type.isExact = true) :
    plan.Agrees (plan.crossed order) (plan.LeftTyped types)
      (plan.RightTyped types) where
  resultSchema_eq := rfl
  sweepsRight_eq := rfl
  rightFault?_eq _ _ _ _ := rfl
  leftFault?_eq rights block rightsTyped leftsTyped := by
    simp only [leftFault?, pairFault?_crossed exact leftsTyped rightsTyped]
    rfl
  nestedRows_eq rights lefts rightsTyped leftsTyped :=
    (nestedRows_crossed pairing exact leftsTyped rightsTyped).symm
  sweptRows_eq rights lefts rightsTyped leftsTyped :=
    (sweptRows_crossed exact leftsTyped rightsTyped).symm

end JoinPlan

/-- A join that looks for pairs does not ask whether a key is present. -/
theorem JoinKind.presence?_of_joinType
    {joinType : JoinType}
    {kind : JoinKind}
    (pairing : joinType ∈ [JoinType.inner, .left, .right, .full])
    (kind_eq : ofType joinType = .ok kind) :
    kind.presence? = none := by
  simp only [List.mem_cons, List.not_mem_nil, or_false] at pairing
  rcases pairing with rfl | rfl | rfl | rfl <;> cases kind_eq <;> rfl

namespace BroadcastJoin

variable {Left Right : Type} {left : Left} {right : Right}
variable {spec : JoinSpec} {options : JoinOptions} {order : BucketOrder}
variable {join : BroadcastJoin Left Right}

variable [Operator Left] [Drainable Right]

/--
Whatever is asked of a join that looks for pairs by key, and of the cross product
with the keys as comparisons in front, they answer the same blocks, failures
included; only the rows of the final sweep may come in another order.  The children
hand out rows of the declared widths, with values of one exact type in each key
column.
-/
theorem keyed_join_eq_crossed
    {leftKeys rightKeys : KeyColumns}
    {types : List ColumnType}
    (crossOrder : BucketOrder)
    (pairing : spec.joinType ∈ [JoinType.inner, .left, .right, .full])
    (leftSelected : spec.leftKeys = some leftKeys)
    (rightSelected : spec.rightKeys = some rightKeys)
    (accepted : ofSpec left right spec options order = .ok join)
    (exact : ∀ type ∈ types, type.isExact = true)
    (leftTyped :
      ∀ row, Operator.HandsOut left row →
        row.length = spec.leftSchema.width ∧ leftKeys.Typed types row)
    (rightTyped :
      ∀ row, Operator.HandsOut right row →
        row.length = spec.rightSchema.width ∧ rightKeys.Typed types row) :
    ∃ cross,
      ofSpec left right (spec.crossed leftKeys rightKeys) options crossOrder =
          .ok cross ∧
        ∀ calls : List Call,
          let keyed := Operator.pull (Operator.afterCalls join calls)
          let crossed := Operator.pull (Operator.afterCalls cross calls)
          keyed.block = crossed.block ∨ SweepAlike keyed crossed := by
  obtain ⟨plan, checked, rfl⟩ := exists_plan_of_ofSpec accepted
  have describes := JoinPlan.ofSpec_eq_ok_iff.mp checked
  obtain rfl : leftKeys = plan.leftKeys :=
    Option.some.inj (leftSelected.symm.trans describes.leftKeys_eq)
  obtain rfl : rightKeys = plan.rightKeys :=
    Option.some.inj (rightSelected.symm.trans describes.rightKeys_eq)
  rw [describes.leftWidth_eq] at leftTyped
  rw [describes.rightWidth_eq] at rightTyped
  have crossChecked :=
    JoinPlan.ofSpec_eq_ok_iff.mpr (JoinPlan.describes_crossed describes crossOrder)
  have looksForPairs := JoinKind.presence?_of_joinType pairing describes.kind_eq
  refine ⟨⟨.ofPlan (plan.crossed crossOrder), left, right⟩, ?_, ?_⟩
  · simp only [ofSpec, crossChecked, Except.map]
  · intro calls
    have alike :=
      answersAlike_afterCalls
        (JoinPlan.agrees_crossed crossOrder looksForPairs exact) leftTyped
        rightTyped calls
    exact alike.block

/-- A key with a number. -/
def numberSchema : Schema := ⟨[⟨"key", .int⟩, ⟨"number", .int⟩]⟩

/-- A join of both sides in which a predicate stands behind the keys. -/
def keyedSpec : JoinSpec :=
  { JoinSpec.equiJoin .full numberSchema numberSchema ⟨[0]⟩ ⟨[0]⟩ with
    residuals := ⟨[(Comparison.columns 1 .below 3).toPredicate]⟩ }

/-- Left rows in two blocks, and one more row behind the end. -/
def keyedLefts : Replay :=
  .ofBlocks
    [.ofRows [[.int 1, .int 5], [.int 2, .int 8]] numberSchema, .idle,
      .ofRows [[.int 1, .int 8]] numberSchema, .ended,
      .ofRows [[.null, .null]] numberSchema]

/-- Right rows in two blocks, of which three have the same key. -/
def keyedRights : Replay :=
  .ofBlocks
    [.ofRows [[.int 2, .int 6], [.int 1, .int 7]] numberSchema, .idle,
      .ofRows [[.int 1, .int 2], [.int 1, .int 7]] numberSchema]

/-- A small join with a repeated key, a predicate behind the keys, and a sweep. -/
def keyedJoin : BroadcastJoin Replay Replay :=
  ⟨.ofPlan ((JoinPlan.ofSpec keyedSpec .default).toOption.get rfl), keyedLefts,
    keyedRights⟩

/--
The row behind the end of the left child is never handed out, so its nulls do not
count.
-/
theorem keyed_join_eq_crossed_sample :
    Operator.replies keyedJoin [.pull, .pull, .pull, .pull, .pull] =
        [.idle,
          .ofRows
            [[.int 1, .int 5, .int 1, .int 7], [.int 1, .int 5, .int 1, .int 7],
              [.int 2, .int 8, .null, .null]]
            keyedSpec.resultSchema,
          .idle, .ofRows [[.int 1, .int 8, .null, .null]] keyedSpec.resultSchema,
          .ofRows [[.null, .null, .int 1, .int 2], [.null, .null, .int 2, .int 6]]
            keyedSpec.resultSchema] ∧
      ∃ cross,
        ofSpec keyedLefts keyedRights (keyedSpec.crossed ⟨[0]⟩ ⟨[0]⟩) .default =
            .ok cross ∧
          ∀ calls : List Call,
            let keyed := Operator.pull (Operator.afterCalls keyedJoin calls)
            let crossed := Operator.pull (Operator.afterCalls cross calls)
            keyed.block = crossed.block ∨ SweepAlike keyed crossed := by
  have accepted :
      ofSpec keyedLefts keyedRights keyedSpec .default = .ok keyedJoin := rfl
  have exact : ∀ type ∈ [ColumnType.int], type.isExact = true := by decide
  have leftTyped :
      ∀ row ∈ rowsOf (keyedLefts.queued.takeWhile fun block => !block.isEnd),
        row.length = 2 ∧ KeyColumns.Typed ⟨[0]⟩ [.int] row := by
    decide
  have rightTyped :
      ∀ row ∈ rowsOf (keyedRights.queued.takeWhile fun block => !block.isEnd),
        row.length = 2 ∧ KeyColumns.Typed ⟨[0]⟩ [.int] row := by
    decide
  refine ⟨by decide, ?_⟩
  apply keyed_join_eq_crossed .byKey (by decide) rfl rfl accepted exact
  · exact fun row handsOut => leftTyped row (Replay.mem_rowsOf_of_handsOut handsOut)
  · exact
      fun row handsOut => rightTyped row (Replay.mem_rowsOf_of_handsOut handsOut)

end BroadcastJoin

end StreamJoin
