import StreamJoin.Proofs.CounterTotals
import StreamJoin.Proofs.JoinLifecycle
import StreamJoin.Proofs.LimitedStreams
import StreamJoin.Proofs.RaisedFaults

namespace StreamJoin

/-!
# The row limit of a join

A row limit is exact: a join is refused for it exactly if its right stream exceeds
it, and then before the left child is pulled.  It is all or nothing: of a right
block that is refused nothing is stored or counted.  And it does not show otherwise:
a join that is not refused for its limit does what the same join does without one.
-/

namespace JoinRecord

/-- The failures that a join has answered are the one that it remembers. -/
def AnswersFailure (record : JoinRecord) : Prop :=
  ∀ cause, .failed cause ∈ record.answers ↔ record.state.phase = .failed cause

/-- A failure that is answered next is the one that is remembered behind it. -/
theorem AnswersFailure.append
    {state later : JoinState}
    {rights lefts moreRights moreLefts answers : List Block}
    {answer? : Option Block}
    (remembers : AnswersFailure ⟨state, rights, lefts, answers⟩)
    (noFailure : state.phase.cause? = none)
    (cause_eq : later.phase.cause? = answer?.bind Block.cause?) :
    AnswersFailure ⟨later, moreRights, moreLefts, answers ++ answer?.toList⟩ := by
  intro cause
  have noneBefore : .failed cause ∉ answers := by
    intro member
    have failed := Phase.cause?_eq_some_iff.mpr ((remembers cause).mp member)
    cases noFailure.symm.trans failed
  rw [← Phase.cause?_eq_some_iff, cause_eq, Option.bind_eq_some_iff]
  simp only [List.mem_append, noneBefore, false_or, Option.mem_toList,
    Block.cause?_eq_some_iff, exists_eq_right]

/-- In every run a failure is answered exactly if it is remembered. -/
theorem maintained_answersFailure : Maintained AnswersFailure where
  receivesRight block opened beforeProbing remembers :=
    have active := JoinState.isActive_of_beforeProbing beforeProbing opened
    remembers.append (JoinState.noFailure_of_active active)
      (JoinState.cause?_receiveRight rfl block)
  receivesLeft := by
    intro state rights lefts answers block opened probing remembers
    have noFailure :=
      JoinState.noFailure_of_active (JoinState.isActive_of_probing opened probing)
    have answered :
        (state.receiveLeft block).state.phase.cause? =
          (some (state.receiveLeft block).block).bind Block.cause? :=
      JoinState.cause?_receiveLeft noFailure block
    exact remembers.append noFailure answered
  repeatsLast := by
    intro state rights lefts answers _ remembers cause
    have remembered : .failed cause ∈ answers ↔ state.phase = .failed cause :=
      remembers cause
    simp only [List.mem_append, List.mem_singleton, remembered, or_iff_left_iff_imp]
    intro isLast
    unfold JoinState.lastBlock at isLast
    split at isLast
    · next failed =>
        cases isLast
        exact Phase.cause?_eq_some_iff.mp failed
    · cases isLast
  released remembers := remembers

/--
As long as an open join drains its right child, each of its answers took a right
block.
-/
def Drains (record : JoinRecord) : Prop :=
  record.state.closed = false → record.state.phase.isBeforeProbing = true →
    record.answers.length ≤ record.rights.length

/-- In every run an answer during building took a right block. -/
theorem maintained_drains : Maintained Drains where
  receivesRight := by
    intro state rights lefts answers block opened beforeProbing drains _ _
    have before : answers.length ≤ rights.length := drains opened beforeProbing
    simp only [List.length_append, List.length_singleton]
    cases (state.beginBuild.receiveRight block).answer? with
    | none => simp only [Option.toList_none, List.length_nil]; omega
    | some answer => simp only [Option.toList_some, List.length_singleton]; omega
  receivesLeft := by
    intro state rights lefts answers block _ probing _ _ beforeProbing
    rcases JoinState.receiveLeft_cases probing with
        ⟨stays | ends, _⟩ | ⟨cause, failed, _⟩
    · rw [stays] at beforeProbing
      cases beforeProbing
    · rw [ends] at beforeProbing
      cases beforeProbing
    · rw [failed] at beforeProbing
      cases beforeProbing
  repeatsLast := by
    intro state rights lefts answers inactive _ opened beforeProbing
    cases inactive.symm.trans
      (JoinState.isActive_of_beforeProbing beforeProbing opened)
  released := by
    intro state rights lefts answers _ opened
    cases opened

/--
A join that fails with the failure of a row limit was refused for its own, or a
block of a child or a residual predicate failed so.
-/
def LimitExplained (record : JoinRecord) : Prop :=
  ∀ limit, record.state.phase = .failed (.rowLimitExceeded limit) →
    record.RefusedForLimit limit ∨
      .failed (.rowLimitExceeded limit) ∈ record.rights ++ record.lefts ∨
      ∃ candidate,
        record.state.plan.residualFault? candidate = some (.rowLimitExceeded limit)

/-- In every run a failure of the limit has its reason in the right rows. -/
theorem maintained_limitExplained :
    Maintained fun record => record.Kept ∧ record.LimitExplained where
  receivesRight := by
    intro state rights lefts answers block opened beforeProbing holds
    refine ⟨maintained_kept.receivesRight block opened beforeProbing holds.1, ?_⟩
    intro limit failed
    cases block with
    | idle => cases failed
    | ended => cases failed
    | failed cause =>
        cases failed
        exact .inr (.inl (by simp))
    | data batch => exact .inl ⟨failed, rights, batch, rfl⟩
  receivesLeft := by
    intro state rights lefts answers block opened probing holds
    refine ⟨maintained_kept.receivesLeft block opened probing holds.1, ?_⟩
    obtain ⟨stored, streaming⟩ :=
      holds.1.probing (JoinState.isActive_of_probing opened probing) probing
    intro limit failed
    have samePlan : (state.receiveLeft block).state.plan = state.plan :=
      JoinState.plan_receiveLeft
    cases block with
    | idle => cases probing.symm.trans failed
    | failed cause =>
        cases failed
        exact .inr (.inl (by simp))
    | ended =>
        simp only [JoinState.receiveLeft, JoinState.finishProbe] at failed
        split at failed <;> cases failed
    | data batch =>
        cases outcome : state.plan.leftFault? (rowsOf stored) (.data batch) with
        | none =>
            obtain ⟨_, probedHolds⟩ :=
              JoinState.probe_of_noFault streaming.holds outcome
            cases probedHolds.phase_eq.symm.trans failed
        | some fault =>
            obtain ⟨_, failedFor⟩ :=
              JoinState.probe_of_fault streaming.holds outcome
            obtain rfl : fault = .rowLimitExceeded limit :=
              Phase.failed.inj (failedFor.symm.trans failed)
            rcases Option.or_eq_some_iff.mp outcome with wrong | ⟨_, evaluated⟩
            · obtain ⟨_, _, isWidth⟩ := Option.map_eq_some_iff.mp wrong
              cases isWidth
            · obtain ⟨candidate, found⟩ :=
                JoinPlan.exists_residual_of_pairFault evaluated
              exact .inr (.inr ⟨candidate, samePlan ▸ found⟩)
  repeatsLast := by
    intro state rights lefts answers inactive holds
    refine ⟨maintained_kept.repeatsLast inactive holds.1, fun limit failed => ?_⟩
    exact
      (holds.2 limit failed).imp (fun refused => ⟨refused.failed, refused.atData⟩)
        id
  released := by
    intro state rights lefts answers holds
    refine ⟨maintained_kept.released holds.1, fun limit failed => ?_⟩
    exact
      (holds.2 limit failed).imp (fun refused => ⟨refused.failed, refused.atData⟩)
        id

end JoinRecord

/--
A join that has counted, and as long as it is open holds, the rows of some right
blocks only.
-/
structure JoinState.HoldsOnly (state : JoinState) (stored : List Block) : Prop where
  rightBlocks_eq : state.stats.rightBlocks = (dataOf stored).length
  rightRows_eq : state.stats.rightRows = (rowsOf stored).length
  distinctKeys_eq : state.stats.distinctKeys = 0
  tableRows_eq : state.closed = false → state.tableRows = (rowsOf stored).length
  table_eq : state.closed = false → state.table = state.plan.tableOf (rowsOf stored)

/--
A join that failed at right data has counted and holds the right blocks before them.
-/
theorem JoinRecord.Course.holdsOnly_of_failed
    {record : JoinRecord}
    {cause : Fault}
    {stored : List Block}
    {batch : Batch}
    (course : record.Course)
    (truthful : record.Truthful)
    (failed : record.state.phase = .failed cause)
    (atData : record.rights = stored ++ [.data batch]) :
    record.state.HoldsOnly stored := by
  obtain ⟨noLefts, passes, fails, holds⟩ := course.of_failedAtData failed atData
  obtain ⟨state, rights, lefts, answers⟩ := record
  obtain rfl : lefts = [] := noLefts
  obtain rfl : rights = stored ++ [.data batch] := atData
  have goesOn : (Block.data batch).isEnd = false := rfl
  have tally_eq := JoinPlan.tallyOf_rights_append passes goesOn
  rw [JoinPlan.scanRight_cons_of_fault goesOn fails] at tally_eq
  have counted : state.stats = state.plan.tallyOf stored [] [] :=
    (JoinRecord.truthful_building_iff.mp truthful).1.trans tally_eq
  have noEnd : .ended ∉ stored := ended_notMem_of_passes (fun _ _ => rfl) passes
  constructor
  · rw [counted, JoinPlan.tallyOf, JoinPlan.acceptedRights_of_passes passes]
  · rw [counted, JoinPlan.tallyOf, JoinPlan.acceptedRights_of_passes passes]
  · rw [counted, JoinPlan.tallyOf, if_neg noEnd]
  · exact fun opened => (holds opened).tableRows_eq
  · exact fun opened => (holds opened).table_eq

namespace BroadcastJoin

variable {Left Right : Type} [Operator Left] [Drainable Right]

/--
A right child that was only pulled, since it was `right`, with all its answers
noted; once the join is closed only the notes matter.
-/
structure OnlyPulled
    (right : Right)
    (join : BroadcastJoin (Noted Left) (Noted Right)) :
    Prop where
  answered : ∃ count, join.right.answered = Operator.firstAnswers count right
  opened :
    join.state.closed = false →
      ∃ count,
        join.right =
          ⟨Operator.afterPulls count right, Operator.firstAnswers count right⟩

/-- A pull of a join only pulls its right child. -/
theorem onlyPulled_pull
    {right : Right}
    {join : BroadcastJoin (Noted Left) (Noted Right)}
    (onlyPulled : OnlyPulled right join) :
    OnlyPulled right join.pull.next := by
  cases closed : join.state.closed with
  | true =>
      rw [(pull_of_inactive (JoinState.isActive_of_closed closed)).2]
      exact onlyPulled
  | false =>
      have stillPulled : join.pull.next.right.PulledFrom right :=
        (@children_pull _ _ _ _ join (fun _ => True) (·.PulledFrom right)
          (fun _ _ => trivial) (fun _ => Noted.pulledFrom_pull) trivial
          (onlyPulled.opened closed)).2
      obtain ⟨count, noted⟩ := stillPulled
      exact ⟨⟨count, congrArg Noted.answered noted⟩, fun _ => ⟨count, noted⟩⟩

/-- Any requests only pull the right child, until the join is closed. -/
theorem onlyPulled_afterCalls
    {right : Right}
    {join : BroadcastJoin (Noted Left) (Noted Right)}
    (onlyPulled : OnlyPulled right join)
    (calls : List Call) :
    OnlyPulled right (Operator.afterCalls join calls) := by
  induction calls generalizing join with
  | nil => exact onlyPulled
  | cons call rest inductionHypothesis =>
      cases call with
      | pull => exact inductionHypothesis (onlyPulled_pull onlyPulled)
      | close =>
          obtain ⟨count, answered⟩ := onlyPulled.answered
          apply inductionHypothesis
          refine ⟨⟨count, (answered_close join).trans answered⟩, fun opened => ?_⟩
          cases (closed_close join).symm.trans opened

/-- Pulls leave a join open, and each of them is answered. -/
theorem pulls_afterCalls (join : BroadcastJoin Left Right) (count : Nat) :
    (Operator.afterCalls join (List.replicate count .pull)).state.closed =
        join.state.closed ∧
      (Operator.replies join (List.replicate count .pull)).length = count := by
  induction count generalizing join with
  | zero => exact ⟨rfl, rfl⟩
  | succ count inductionHypothesis =>
      obtain ⟨sameClosed, sameLength⟩ := inductionHypothesis join.pull.next
      exact ⟨sameClosed.trans (closed_pull join), congrArg (· + 1) sameLength⟩

variable {left : Left} {right : Right} {spec : JoinSpec} {options : JoinOptions}
  {limit : Nat}
variable {order : BucketOrder} {join : BroadcastJoin Left Right}

/--
The right answers that a join has received are the first ones of its right stream.
-/
theorem exists_rights_eq
    (accepted : ofSpec left right spec options order = .ok join)
    (calls : List Call) :
    ∃ count,
      (join.recordAfter calls).rights = Operator.firstAnswers count right := by
  apply OnlyPulled.answered
  apply onlyPulled_afterCalls
  rw [eq_ofPlan accepted]
  exact ⟨⟨0, rfl⟩, fun _ => ⟨0, rfl⟩⟩

/--
What is left of draining the right child of a join answers a failure at the next
right block, stores nothing of it, and counts no right rows besides those that the
right child counts.
-/
structure LeavesOut (join : BroadcastJoin Left Right) (fault : Fault) : Prop where
  block_eq : join.pullRight.block = .failed fault
  next_eq :
    join.pullRight.next =
      ⟨{ join.state with phase := .failed fault }, join.left,
        (Operator.pull join.right).next⟩
  buildRows_eq :
    ∀ counters : Counters,
      (counters.recordAll join.pullRight.events).buildRows =
        (counters.recordAll (Operator.pull join.right).events).buildRows

/-- A right block that cannot be stored leaves nothing behind. -/
theorem leavesOut_of_refused
    {batch : Batch}
    {fault : Fault}
    (answered : (Operator.pull join.right).block = .data batch)
    (refused : join.state.beginBuild.store batch.rows = .error fault) :
    join.LeavesOut fault := by
  have pulled : join.pullRight = _ := pullRight_refused answered refused
  constructor
  · rw [pulled]
  · rw [pulled]
    rfl
  · intro counters
    rw [pulled, Counters.recordAll_append]
    rfl

/--
What a row limit does to a join over a right child.  The join receives the right
stream in its order, and is refused for the limit exactly if the stream exceeds it:
then within as many pulls as the stream has blocks up to there, and without any left
block.  A failure is answered as soon as it is remembered, and there is no other way
to fail with that of a limit than through a child or a predicate.  As long as the
join is not refused, the limit does not show.
-/
structure EnforcesLimit
    (join : BroadcastJoin Left Right)
    (right : Right)
    (width limit : Nat) : Prop where
  state_eq :
    ∀ calls, (join.recordAfter calls).state = (Operator.afterCalls join calls).state
  receivesStream :
    ∀ calls,
      ∃ count, (join.recordAfter calls).rights = Operator.firstAnswers count right
  refused_iff :
    (∃ calls, (join.recordAfter calls).RefusedForLimit limit) ↔
      ∃ count, Operator.ExceedsAt width limit right count
  refusedInTime :
    ∀ count, Operator.ExceedsAt width limit right count →
      (join.recordAfter (List.replicate (count + 1) .pull)).RefusedForLimit limit
  noLefts :
    ∀ count, Operator.ExceedsAt width limit right count →
      ∀ calls, (join.recordAfter calls).lefts = []
  answersFailure : ∀ calls, (join.recordAfter calls).AnswersFailure
  explained : ∀ calls, (join.recordAfter calls).LimitExplained
  unnoticed :
    ∀ calls,
      ¬ (join.recordAfter calls).RefusedForLimit limit → join.LimitUnnoticed calls

section Limited

variable (accepted : ofSpec left right spec ⟨some limit⟩ order = .ok join)
include accepted

/-- In a run the plan is the one that was described. -/
theorem describes_recordAfter (calls : List Call) :
    (join.recordAfter calls).state.plan.Describes spec ⟨some limit⟩ order := by
  obtain ⟨plan, checked, rfl⟩ := exists_plan_of_ofSpec accepted
  rw [state_recordAfter, plan_afterCalls]
  exact JoinPlan.ofSpec_eq_ok_iff.mp checked

/-- In a run the limit is the one that was asked for. -/
theorem rowLimit_recordAfter (calls : List Call) :
    (join.recordAfter calls).state.plan.options.rowLimit = some limit := by
  rw [← (describes_recordAfter accepted calls).options_eq]

/-- Before the row too many the join builds, and there it refuses. -/
theorem refused_or_draining
    {count : Nat}
    (exceeds : Operator.ExceedsAt spec.rightSchema.width limit right count)
    (calls : List Call) :
    (join.recordAfter calls).lefts = [] ∧
      ((join.recordAfter calls).RefusedForLimit limit ∨
        (join.recordAfter calls).state.phase.isBeforeProbing = true ∧
          (join.recordAfter calls).rights.length ≤ count) := by
  obtain ⟨received, rights_eq⟩ := exists_rights_eq accepted calls
  have limited := rowLimit_recordAfter accepted calls
  rw [(describes_recordAfter accepted calls).rightWidth_eq] at exceeds
  exact
    (course_recordAfter accepted calls).refused_of_exceedsAt rights_eq limited
      exceeds

/--
Each pull takes a right block, so a join is refused at the latest where the limit is
exceeded.
-/
theorem refused_of_pulls
    {count : Nat}
    (exceeds : Operator.ExceedsAt spec.rightSchema.width limit right count) :
    (join.recordAfter (List.replicate (count + 1) .pull)).RefusedForLimit
      limit := by
  rcases (refused_or_draining accepted exceeds
    (List.replicate (count + 1) .pull)).2 with refused | ⟨beforeProbing, atMost⟩
  · exact refused
  · -- Each pull took a right block, so there are more of them than stand before
    -- that place.
    obtain ⟨sameClosed, answered⟩ := pulls_afterCalls join (count + 1)
    have opened :
        (join.recordAfter (List.replicate (count + 1) .pull)).state.closed =
          false := by
      rw [state_recordAfter, sameClosed, eq_ofPlan accepted]
      rfl
    have drains :=
      maintained_recordAfter JoinRecord.maintained_drains accepted
        (fun _ _ => Nat.le_refl 0) (List.replicate (count + 1) .pull)
    have answersTaken : count + 1 ≤ _ := answered ▸ drains opened beforeProbing
    omega

/-- A join whose right input exceeds the limit enforces it. -/
theorem enforcesLimit : join.EnforcesLimit right spec.rightSchema.width limit where
  state_eq calls := state_recordAfter join calls
  receivesStream calls := exists_rights_eq accepted calls
  refused_iff := by
    constructor
    · rintro ⟨calls, refused⟩
      obtain ⟨received, rights_eq⟩ := exists_rights_eq accepted calls
      rw [(describes_recordAfter accepted calls).rightWidth_eq]
      exact
        (course_recordAfter accepted calls).exceedsAt_of_refused rights_eq
          (rowLimit_recordAfter accepted calls) refused
    · rintro ⟨count, exceeds⟩
      exact ⟨_, refused_of_pulls accepted exceeds⟩
  refusedInTime _ exceeds := refused_of_pulls accepted exceeds
  noLefts _ exceeds calls := (refused_or_draining accepted exceeds calls).1
  answersFailure :=
    maintained_recordAfter JoinRecord.maintained_answersFailure accepted
      fun _ => ⟨nofun, nofun⟩
  explained calls :=
    (maintained_recordAfter JoinRecord.maintained_limitExplained accepted
      ⟨JoinRecord.kept_ofPlan join.state.plan, nofun⟩ calls).2
  unnoticed _ notRefused :=
    limitUnnoticed_of_notRefused (rowLimit_recordAfter accepted []) notRefused

end Limited

/--
A join with a row limit is refused for it exactly if the first right blocks, up to
one with which their rows are more than the limit, neither end nor fail nor have
rows of a wrong width before that one.  It then fails without pulling its left
child.  As long as it is not refused it does the same as the join of the same
description without a limit.  Of a right block that is refused, for the limit or for
a width, nothing is stored or counted.
-/
theorem row_limit_exact
    (accepted : ofSpec left right spec ⟨some limit⟩ order = .ok join) :
    ofSpec left right spec .default order = .ok join.withoutLimit ∧
      join.EnforcesLimit right spec.rightSchema.width limit ∧
      (∀ calls cause stored batch,
        (join.recordAfter calls).state.phase = .failed cause →
          (join.recordAfter calls).rights = stored ++ [.data batch] →
            (join.recordAfter calls).state.HoldsOnly stored) ∧
      ∀ (reached : BroadcastJoin Left Right) (batch : Batch) (fault : Fault),
        (Operator.pull reached.right).block = .data batch →
          reached.state.beginBuild.store batch.rows = .error fault →
            reached.LeavesOut fault :=
  ⟨ofSpec_default accepted, enforcesLimit accepted,
    fun calls _ _ _ =>
      (course_recordAfter accepted calls).holdsOnly_of_failed
        (kept_recordAfter accepted calls).truthful,
    fun _ _ _ answered refused => leavesOut_of_refused answered refused⟩

/-- A key with a number. -/
def limitedSchema : Schema := ⟨[⟨"key", .int⟩, ⟨"number", .int⟩]⟩

/-- A join of both sides by their keys. -/
def limitedSpec : JoinSpec :=
  .equiJoin .full limitedSchema limitedSchema ⟨[0]⟩ ⟨[0]⟩

/-- One left row. -/
def limitedLeft : Replay := .ofBatches limitedSchema [[[.int 1, .int 5]]]

/-- Two right rows, and a third one that is too narrow. -/
def limitedRight : Replay :=
  .ofBlocks
    [.ofRows [[.int 1, .int 7]] limitedSchema, .idle, .ofRows [] limitedSchema,
      .ofRows [[.int 2, .int 8]] limitedSchema, .ofRows [[.int 3]] limitedSchema]

/--
A small join whose limit is filled to the last row, behind which a block is too
much.
-/
def limitedJoin : BroadcastJoin Replay Replay :=
  ⟨.ofPlan ((JoinPlan.ofSpec limitedSpec ⟨some 2⟩).toOption.get rfl), limitedLeft,
    limitedRight⟩

/-- The sample source exceeds the limit at its last block. -/
theorem exceedsAt_limitedRight : Operator.ExceedsAt 2 2 limitedRight 4 where
  admissible block member := by
    have goesOn :
        ∀ block ∈ Operator.firstAnswers 4 limitedRight,
          block.isTerminal = false := by
      decide
    have widths :
        ∀ block ∈ Operator.firstAnswers 4 limitedRight,
          ∀ row ∈ block.rows, row.length = 2 := by
      decide
    exact ⟨goesOn block member, widths block member⟩
  exceeds := ⟨⟨[[.int 3]], limitedSchema⟩, by decide, by decide⟩

/--
The limit wins over the width of the row that is too much.  In the first pull it
does not show, and without it the join fails for the width.
-/
theorem row_limit_exact_sample :
    Operator.replies limitedJoin [.pull, .pull] =
        [.idle, .failed (.rowLimitExceeded 2)] ∧
      Operator.replies limitedJoin.withoutLimit [.pull, .pull] =
        [.idle, .failed (.wrongRowWidth .right 2 1)] ∧
      (limitedJoin.recordAfter (List.replicate 5 .pull)).RefusedForLimit 2 ∧
      limitedJoin.LimitUnnoticed [.pull] ∧
      (limitedJoin.recordAfter [.pull, .pull]).state.HoldsOnly
        (Operator.firstAnswers 4 limitedRight) ∧
      ((Operator.afterCalls limitedJoin [.pull]).behindRight.behindRight).LeavesOut
        (.rowLimitExceeded 2) := by
  have accepted :
      ofSpec limitedLeft limitedRight limitedSpec ⟨some 2⟩ .byKey =
        .ok limitedJoin := rfl
  obtain ⟨_, enforces, holdsOnly, leavesOut⟩ := row_limit_exact accepted
  refine
    ⟨by decide, by decide, enforces.refusedInTime 4 exceedsAt_limitedRight,
      enforces.unnoticed [.pull] fun refused => absurd refused.failed (by decide),
      holdsOnly [.pull, .pull] (.rowLimitExceeded 2) _ ⟨[[.int 3]], limitedSchema⟩
        (by decide) (by decide),
      leavesOut _ ⟨[[.int 3]], limitedSchema⟩ _ (by decide) rfl⟩

end BroadcastJoin

end StreamJoin
