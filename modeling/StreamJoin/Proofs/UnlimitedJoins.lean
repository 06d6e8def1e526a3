import StreamJoin.Proofs.PlanChecks
import StreamJoin.Proofs.RecordedRuns

namespace StreamJoin

/-!
# Joins without their row limit

A row limit shows in one step only: at a right block that would exceed it.  Until
then a join and the same join without the limit answer and report the same, and
stand in the same state, whatever is asked of them.

The run is followed with noted children, which tell at which block the limit showed.
-/

/-- The same plan without a row limit. -/
def JoinPlan.withoutLimit (plan : JoinPlan) : JoinPlan :=
  { plan with options := .default }

/-- The same state without a row limit. -/
def JoinState.withoutLimit (state : JoinState) : JoinState :=
  { state with plan := state.plan.withoutLimit }

/-- The same join without a row limit. -/
def BroadcastJoin.withoutLimit
    {Left Right : Type}
    (join : BroadcastJoin Left Right) :
    BroadcastJoin Left Right :=
  { join with state := join.state.withoutLimit }

namespace JoinPlan

variable {plan : JoinPlan} {table : Table} {left : Row} {rows : List Row}

/-- Without the limit a left row is paired alike. -/
theorem pairWith_withoutLimit {key : Key} {position : Nat} :
    plan.withoutLimit.pairWith left key position rows =
      plan.pairWith left key position rows := by
  induction rows generalizing position with
  | nil => rfl
  | cons right rest inductionHypothesis =>
      simp only [pairWith, inductionHypothesis]
      rfl

/-- Without the limit a left row is answered alike. -/
theorem probeRow_withoutLimit :
    plan.withoutLimit.probeRow table left = plan.probeRow table left := by
  simp only [probeRow, pairWith_withoutLimit]
  rfl

/-- A row limit does not matter to a probe. -/
theorem probeRows_withoutLimit :
    plan.withoutLimit.probeRows table rows = plan.probeRows table rows := by
  induction rows with
  | nil => rfl
  | cons left rest inductionHypothesis =>
      rw [probeRows, probeRows, probeRow_withoutLimit, inductionHypothesis]

end JoinPlan

namespace JoinState

variable {state : JoinState} {rows : List Row} {block : Block}

/-- Without the limit a left block is probed alike. -/
theorem probe_withoutLimit :
    state.withoutLimit.probe rows =
      ⟨(state.probe rows).block, (state.probe rows).state.withoutLimit,
        (state.probe rows).events⟩ := by
  have sameProbe :
      state.withoutLimit.plan.probeRows state.withoutLimit.table rows =
        state.plan.probeRows state.table rows :=
    JoinPlan.probeRows_withoutLimit
  have sameWidth : state.withoutLimit.plan.leftWidth = state.plan.leftWidth := rfl
  simp only [probe, sameProbe, sameWidth]
  split
  · rfl
  · split <;> rfl

/-- Without the limit the left input ends alike. -/
theorem finishProbe_withoutLimit :
    state.withoutLimit.finishProbe =
      ⟨state.finishProbe.block, state.finishProbe.state.withoutLimit,
        state.finishProbe.events⟩ := by
  have sameKind : state.withoutLimit.kind = state.kind := rfl
  simp only [finishProbe, sameKind]
  split <;> rfl

/-- A row limit does not matter to a left block. -/
theorem receiveLeft_withoutLimit :
    state.withoutLimit.receiveLeft block =
      ⟨(state.receiveLeft block).block,
        (state.receiveLeft block).state.withoutLimit,
        (state.receiveLeft block).events⟩ := by
  cases block with
  | idle => rfl
  | failed cause => rfl
  | ended => exact finishProbe_withoutLimit
  | data batch => exact probe_withoutLimit

/-- Rows that do not exceed the limit are stored as if there were none. -/
theorem store_withoutLimit
    (within : state.exceededLimit? (state.tableRows + rows.length) = none) :
    state.withoutLimit.store rows = (state.store rows).map withoutLimit := by
  have unlimited :
      state.withoutLimit.exceededLimit?
        (state.withoutLimit.tableRows + rows.length) = none := rfl
  have sameWidth : state.withoutLimit.plan.rightWidth = state.plan.rightWidth := rfl
  simp only [store, within, unlimited, sameWidth]
  split <;> rfl

/-- A row limit matters to a right block only if the block exceeds it. -/
theorem exceeded_or_receiveRight_withoutLimit (state : JoinState) (block : Block) :
    (∃ batch limit,
      block = .data batch ∧ state.plan.options.rowLimit = some limit ∧
        (state.receiveRight block).state.phase =
          .failed (.rowLimitExceeded limit)) ∨
    state.withoutLimit.receiveRight block =
      ⟨(state.receiveRight block).answer?,
        (state.receiveRight block).state.withoutLimit,
        (state.receiveRight block).events⟩ := by
  cases block with
  | idle => exact .inr rfl
  | failed cause => exact .inr rfl
  | ended => exact .inr rfl
  | data batch =>
      cases exceeded : state.exceededLimit?
        (state.tableRows + batch.rows.length) with
      | some limit =>
          have limited : state.plan.options.rowLimit = some limit :=
            (Option.filter_eq_some_iff.mp exceeded).1
          refine .inl ⟨batch, limit, rfl, limited, ?_⟩
          simp only [receiveRight, store, exceeded]
          rfl
      | none =>
          simp only [receiveRight, store_withoutLimit exceeded]
          cases state.store batch.rows <;> exact .inr rfl

end JoinState

/--
A join that failed at a right block of data because the block would exceed its row
limit.
-/
structure JoinRecord.RefusedForLimit (record : JoinRecord) (limit : Nat) :
    Prop where
  failed : record.state.phase = .failed (.rowLimitExceeded limit)
  atData : ∃ earlier batch, record.rights = earlier ++ [.data batch]

/-- A join that refused a block for the limit may not pull any more. -/
theorem JoinRecord.RefusedForLimit.inactive
    {record : JoinRecord}
    {limit : Nat}
    (refused : record.RefusedForLimit limit) :
    record.state.isActive = false :=
  JoinState.isActive_of_failed (congrArg Phase.cause? refused.failed)

namespace BroadcastJoin

section Noted

variable {Left Right : Type} [Drainable Right]
variable {join : BroadcastJoin (Noted Left) (Noted Right)} {limit : Nat}

/-- A right block exceeds the limit, or it is received as if there were none. -/
theorem refused_or_receivedRight_withoutLimit
    (limited : join.state.plan.options.rowLimit = some limit)
    (answers : List Block) :
    (join.behindRight.record answers).RefusedForLimit limit ∨
      join.withoutLimit.receivedRight =
        ⟨join.receivedRight.answer?, join.receivedRight.state.withoutLimit,
          join.receivedRight.events⟩ := by
  rcases
      join.state.beginBuild.exceeded_or_receiveRight_withoutLimit
        (Operator.pull join.right).block with
      ⟨batch, other, isData, otherLimit, failed⟩ | same
  · obtain rfl : limit = other := Option.some.inj (limited.symm.trans otherLimit)
    have noted :
        (join.behindRight.record answers).rights =
          join.right.answered ++ [.data batch] :=
      congrArg (fun block => join.right.answered ++ [block]) isData
    exact .inl ⟨failed, _, batch, noted⟩
  · exact .inr same

variable [Operator Left]

/--
A pull that is let through exceeds the limit, or goes on as if there were none.
-/
theorem refused_or_advance_withoutLimit
    (limited : join.state.plan.options.rowLimit = some limit)
    (active : join.state.isActive = true)
    (answers : List Block) :
    (join.advance.next.record answers).RefusedForLimit limit ∨
      join.withoutLimit.advance =
        ⟨join.advance.block, join.advance.next.withoutLimit,
          join.advance.events⟩ := by
  revert limited
  apply advance_induction
    (motive := fun join pulled =>
      join.state.plan.options.rowLimit = some limit →
        (pulled.next.record answers).RefusedForLimit limit ∨
          join.withoutLimit.advance =
            ⟨pulled.block, pulled.next.withoutLimit, pulled.events⟩)
    _ _ _ active
  · intro join _ probing _
    have stillProbing : join.withoutLimit.state.phase = .probing := probing
    simp only [advance, stillProbing, pullLeft_eq_receive]
    right
    simp only [withoutLimit, JoinState.receiveLeft_withoutLimit]
  · intro join answered _ beforeProbing answersRight limited
    have stillBefore : join.withoutLimit.state.phase.isBeforeProbing = true :=
      beforeProbing
    refine
      (refused_or_receivedRight_withoutLimit limited answers).imp id fun same => ?_
    have sameAnswer : join.withoutLimit.receivedRight.answer? = some answered := by
      rw [same]
      exact answersRight
    rw [advance_of_beforeProbing stillBefore, pullRight_of_answer sameAnswer,
      behindRight, rightEvents, same]
    rfl
  · intro join opened beforeProbing goesOn later limited
    have stillBefore : join.withoutLimit.state.phase.isBeforeProbing = true :=
      beforeProbing
    have stillLimited :
        join.behindRight.state.plan.options.rowLimit = some limit := by
      rw [behindRight, receivedRight, JoinState.plan_receiveRight]
      exact limited
    rcases refused_or_receivedRight_withoutLimit limited answers with refused | same
    · -- A join that failed does not go on.
      have active : join.behindRight.state.isActive = true :=
        JoinState.isActive_of_goesOn opened goesOn
      cases refused.inactive.symm.trans active
    · refine (later stillLimited).imp id fun sameLater => ?_
      have sameNothing : join.withoutLimit.receivedRight.answer? = none := by
        rw [same]
        exact goesOn
      have sameBehind :
          join.withoutLimit.behindRight = join.behindRight.withoutLimit := by
        rw [behindRight, same]
        rfl
      rw [advance_of_beforeProbing stillBefore, pullRight_of_goesOn sameNothing,
        sameBehind, sameLater, rightEvents, same]
      rfl

/-- A pull exceeds the limit, or it answers as if there were none. -/
theorem refused_or_pull_withoutLimit
    (limited : join.state.plan.options.rowLimit = some limit)
    (answers : List Block) :
    (join.pull.next.record answers).RefusedForLimit limit ∨
      join.withoutLimit.pull =
        ⟨join.pull.block, join.pull.next.withoutLimit, join.pull.events⟩ := by
  cases active : join.state.isActive with
  | true =>
      have stillActive : join.withoutLimit.state.isActive = true := active
      rw [pull_of_isActive active, pull_of_isActive stillActive]
      refine
        (refused_or_advance_withoutLimit limited active answers).imp id fun same =>
          ?_
      rw [same]
      rfl
  | false =>
      have stillInactive : join.withoutLimit.state.isActive = false := active
      right
      rw [pull_eq_of_inactive active]
      exact pull_eq_of_inactive stillInactive

/-- Without the limit a join is closed alike. -/
theorem close_withoutLimit :
    join.withoutLimit.close =
      ⟨join.close.next.withoutLimit, join.close.events⟩ := by
  have sameClosed : join.withoutLimit.state.closed = join.state.closed := rfl
  simp only [close, sameClosed]
  split <;> rfl

/-- Closing a join asks its children for no answer. -/
theorem answered_close (join : BroadcastJoin (Noted Left) (Noted Right)) :
    join.close.next.right.answered = join.right.answered := by
  unfold close
  split <;> rfl

/-- A join that was refused for its limit stays so. -/
theorem refused_afterCalls
    {answers : List Block}
    (refused : (join.record answers).RefusedForLimit limit)
    (calls : List Call)
    (later : List Block) :
    ((Operator.afterCalls join calls).record later).RefusedForLimit limit := by
  induction calls generalizing join with
  | nil => exact ⟨refused.failed, refused.atData⟩
  | cons call rest inductionHypothesis =>
      cases call with
      | pull =>
          have fixed : Operator.next join .pull = join :=
            (pull_of_inactive refused.inactive).2
          rw [Operator.afterCalls, fixed]
          exact inductionHypothesis refused
      | close =>
          obtain ⟨earlier, batch, answered⟩ := refused.atData
          apply inductionHypothesis
          exact
            ⟨(close_settled join).1.trans refused.failed, earlier, batch,
              (answered_close join).trans answered⟩

end Noted

/--
Without its row limit the same description gives the same join without the limit.
-/
theorem ofSpec_default
    {Left Right : Type}
    {left : Left}
    {right : Right}
    {spec : JoinSpec}
    {options : JoinOptions}
    {order : BucketOrder}
    {join : BroadcastJoin Left Right}
    (accepted : ofSpec left right spec options order = .ok join) :
    ofSpec left right spec .default order = .ok join.withoutLimit := by
  obtain ⟨plan, checked, rfl⟩ := exists_plan_of_ofSpec accepted
  have describes := JoinPlan.ofSpec_eq_ok_iff.mp checked
  have unlimited : plan.withoutLimit.Describes spec .default order :=
    { describes with options_eq := rfl }
  rw [ofSpec, JoinPlan.ofSpec_eq_ok_iff.mpr unlimited]
  rfl

section Runs

variable {Left Right : Type} [Operator Left] [Drainable Right]

/--
Some requests to a join in which its row limit does not show: without the limit the
join answers and reports the same, and ends in the same state.
-/
structure LimitUnnoticed (join : BroadcastJoin Left Right) (calls : List Call) :
    Prop where
  replies_eq :
    Operator.replies join.withoutLimit calls = Operator.replies join calls
  reports_eq :
    Operator.reports join.withoutLimit calls = Operator.reports join calls
  final_eq :
    Operator.afterCalls join.withoutLimit calls =
      (Operator.afterCalls join calls).withoutLimit

/-- A run meets the limit or does not notice it. -/
theorem refused_or_limitUnnoticed
    {join : BroadcastJoin (Noted Left) (Noted Right)}
    {limit : Nat}
    (limited : join.state.plan.options.rowLimit = some limit)
    (calls : List Call)
    (answers : List Block) :
    ((Operator.afterCalls join calls).record answers).RefusedForLimit limit ∨
      join.LimitUnnoticed calls := by
  induction calls generalizing join with
  | nil => exact .inr ⟨rfl, rfl, rfl⟩
  | cons call rest inductionHypothesis =>
      cases call with
      | pull =>
          have stillLimited :
              join.pull.next.state.plan.options.rowLimit = some limit := by
            rw [plan_pull]
            exact limited
          -- Once refused, a join stays so, and nothing is said of the other one
          -- from there on.
          rcases refused_or_pull_withoutLimit limited answers with refused | same
          · exact .inl (refused_afterCalls refused rest answers)
          · refine (inductionHypothesis stillLimited).imp id fun later => ?_
            have pulled : Operator.pull join.withoutLimit = _ := same
            constructor
            · simp only [Operator.replies, pulled]
              exact congrArg _ later.replies_eq
            · simp only [Operator.reports, pulled]
              exact congrArg _ later.reports_eq
            · simp only [Operator.afterCalls, Operator.next, pulled]
              exact later.final_eq
      | close =>
          have stillLimited :
              join.close.next.state.plan.options.rowLimit = some limit := by
            rw [plan_close]
            exact limited
          refine (inductionHypothesis stillLimited).imp id fun later => ?_
          have closed : Operator.close join.withoutLimit = _ := close_withoutLimit
          constructor
          · simp only [Operator.replies, closed]
            exact later.replies_eq
          · simp only [Operator.reports, closed]
            exact congrArg _ later.reports_eq
          · simp only [Operator.afterCalls, Operator.next, closed]
            exact later.final_eq

/-- As long as a join was not refused for its limit, the limit does not show. -/
theorem limitUnnoticed_of_notRefused
    {join : BroadcastJoin Left Right}
    {limit : Nat}
    {calls : List Call}
    (limited : join.state.plan.options.rowLimit = some limit)
    (notRefused : ¬ (join.recordAfter calls).RefusedForLimit limit) :
    join.LimitUnnoticed calls := by
  have notedLimited : join.noted.state.plan.options.rowLimit = some limit := limited
  obtain refused | unnoticed :=
    refused_or_limitUnnoticed notedLimited calls (Operator.replies join calls)
  · exact absurd refused notRefused
  have notedWithout : join.noted.withoutLimit = join.withoutLimit.noted := rfl
  constructor
  · rw [← replies_noted join, ← replies_noted join.withoutLimit, ← notedWithout]
    exact unnoticed.replies_eq
  · have reported (join : BroadcastJoin Left Right) :
        Operator.reports join calls = Operator.reports join.noted calls :=
      mirrors_erase.reports join.noted calls
    rw [reported, reported, ← notedWithout]
    exact unnoticed.reports_eq
  · rw [← erase_afterCalls join, ← erase_afterCalls join.withoutLimit,
      ← notedWithout, unnoticed.final_eq]
    rfl

end Runs

end BroadcastJoin

end StreamJoin
