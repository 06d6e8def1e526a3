import StreamJoin.Proofs.JoinLedger
import StreamJoin.Proofs.NotedRuns

namespace StreamJoin

/-!
# Runs of a join, block by block

If the children of a join are noted, its record tells behind any requests which
blocks it received and which ones it answered.  A property of records is shown for
one block: if every block that a join receives keeps it, every repeated answer, and
closing, then every run does.

`JoinRecord.Course` is such a property.  It says where a join stands in the streams
of its children and that it holds exactly the rows that it received up to there.
-/

namespace JoinRecord

/--
A property of records that is kept by every block that a join receives, by every
answer that it repeats, and by closing.
-/
structure Maintained (property : JoinRecord → Prop) : Prop where
  receivesRight :
    ∀ {state : JoinState} {rights lefts answers : List Block} (block : Block),
      state.closed = false → state.phase.isBeforeProbing = true →
        property ⟨state, rights, lefts, answers⟩ →
          property
            ⟨(state.beginBuild.receiveRight block).state, rights ++ [block], lefts,
              answers ++ (state.beginBuild.receiveRight block).answer?.toList⟩
  receivesLeft :
    ∀ {state : JoinState} {rights lefts answers : List Block} (block : Block),
      state.closed = false → state.phase = .probing →
        property ⟨state, rights, lefts, answers⟩ →
          property
            ⟨(state.receiveLeft block).state, rights, lefts ++ [block],
              answers ++ [(state.receiveLeft block).block]⟩
  repeatsLast :
    ∀ {state : JoinState} {rights lefts answers : List Block},
      state.isActive = false → property ⟨state, rights, lefts, answers⟩ →
        property ⟨state, rights, lefts, answers ++ [state.lastBlock]⟩
  released :
    ∀ {state : JoinState} {rights lefts answers : List Block},
      property ⟨state, rights, lefts, answers⟩ →
        property ⟨state.release, rights, lefts, answers⟩

/-- Every run keeps its ledger. -/
theorem maintained_kept : Maintained Kept where
  receivesRight block opened beforeProbing kept := by
    have active := JoinState.isActive_of_beforeProbing beforeProbing opened
    exact (kept.building active beforeProbing).receiveRight kept.truthful block
  receivesLeft block opened probing kept := by
    have active := JoinState.isActive_of_probing opened probing
    obtain ⟨stored, streaming⟩ := kept.probing active probing
    exact streaming.receiveLeft kept.truthful block
  repeatsLast inactive kept := kept.append_lastBlock inactive
  released kept := kept.release

end JoinRecord

namespace BroadcastJoin

variable {Left Right : Type}

/-- The record of a join with noted children. -/
def record
    (join : BroadcastJoin (Noted Left) (Noted Right))
    (answers : List Block) :
    JoinRecord :=
  ⟨join.state, join.right.answered, join.left.answered, answers⟩

variable [Operator Left] [Drainable Right]
variable {join : BroadcastJoin (Noted Left) (Noted Right)} {answers : List Block}
variable {property : JoinRecord → Prop}

/-- What every block maintains is maintained by going on. -/
theorem maintained_advance
    (maintained : JoinRecord.Maintained property)
    (active : join.state.isActive = true)
    (holds : property (join.record answers)) :
    property (join.advance.next.record (answers ++ [join.advance.block])) := by
  revert holds
  apply advance_induction
    (motive := fun join pulled =>
      property (join.record answers) →
        property (pulled.next.record (answers ++ [pulled.block])))
    _ _ _ active
  · intro join opened probing holds
    rw [pullLeft_eq_receive]
    exact
      maintained.receivesLeft (Operator.pull join.left).block opened probing holds
  · intro join answered opened beforeProbing answersRight holds
    have received :=
      maintained.receivesRight (Operator.pull join.right).block opened beforeProbing
        holds
    have sameAnswer :
        (join.state.beginBuild.receiveRight
            (Operator.pull join.right).block).answer? =
          some answered := answersRight
    rw [sameAnswer] at received
    exact received
  · intro join opened beforeProbing goesOn later holds
    have received :=
      maintained.receivesRight (Operator.pull join.right).block opened beforeProbing
        holds
    have noAnswer :
        (join.state.beginBuild.receiveRight
            (Operator.pull join.right).block).answer? =
          none := goesOn
    rw [noAnswer, Option.toList_none, List.append_nil] at received
    exact later received

/-- What every block maintains is maintained by a pull. -/
theorem maintained_pull
    (maintained : JoinRecord.Maintained property)
    (holds : property (join.record answers)) :
    property (join.pull.next.record (answers ++ [join.pull.block])) := by
  cases active : join.state.isActive with
  | true =>
      rw [pull_of_isActive active]
      exact maintained_advance maintained active holds
  | false =>
      obtain ⟨block_eq, next_eq⟩ := pull_of_inactive active
      rw [block_eq, next_eq]
      exact maintained.repeatsLast active holds

/-- What every block maintains is maintained by a closing. -/
theorem maintained_close
    (maintained : JoinRecord.Maintained property)
    (holds : property (join.record answers)) :
    property (join.close.next.record answers) := by
  unfold close
  split
  · exact holds
  · exact maintained.released holds

/-- Whatever is asked of a join, a maintained property of its record stays true. -/
theorem maintained_afterCalls
    (maintained : JoinRecord.Maintained property)
    (holds : property (join.record answers))
    (calls : List Call) :
    property
      ((Operator.afterCalls join calls).record
        (answers ++ Operator.replies join calls)) := by
  induction calls generalizing join answers with
  | nil => exact (List.append_nil answers).symm ▸ holds
  | cons call rest inductionHypothesis =>
      cases call with
      | pull =>
          have later := inductionHypothesis (maintained_pull maintained holds)
          rw [List.append_assoc] at later
          exact later
      | close => exact inductionHypothesis (maintained_close maintained holds)

section Plan

variable {Left Right : Type} [Operator Left] [Drainable Right]

/-- A pull does not touch the plan. -/
theorem plan_pull (join : BroadcastJoin Left Right) :
    join.pull.next.state.plan = join.state.plan := by
  let samePlan (first later : JoinState) : Prop := later.plan = first.plan
  have trans : ∀ {first second third},
      samePlan first second → samePlan second third → samePlan first third :=
    fun earlier later => later.trans earlier
  exact
    related_pull (fun _ => show samePlan _ _ from rfl) trans
      (fun _ _ => JoinState.plan_receiveRight)
      (fun _ _ => JoinState.plan_receiveLeft) join

/-- A closing does not touch the plan. -/
theorem plan_close (join : BroadcastJoin Left Right) :
    join.close.next.state.plan = join.state.plan := by
  unfold close
  split <;> rfl

/-- Nothing that is asked of a join changes its plan. -/
theorem plan_afterCalls (join : BroadcastJoin Left Right) (calls : List Call) :
    (Operator.afterCalls join calls).state.plan = join.state.plan := by
  induction calls generalizing join with
  | nil => rfl
  | cons call rest inductionHypothesis =>
      cases call with
      | pull => exact (inductionHypothesis join.pull.next).trans (plan_pull join)
      | close => exact (inductionHypothesis join.close.next).trans (plan_close join)

end Plan

end BroadcastJoin

namespace JoinState

/-- Releasing a join twice is releasing it once. -/
theorem release_release (state : JoinState) :
    state.release.release = state.release := by
  simp only [release, Option.map_map]
  rfl

/-- The end of the left input keeps what the join holds. -/
theorem holds_finishProbe
    {state : JoinState}
    {plan : JoinPlan}
    {rights lefts : List Row}
    (holds : state.Holds plan .probing rights lefts) :
    state.finishProbe.state.Holds plan .done rights lefts := by
  have done : { state with phase := .done }.Holds plan .done rights lefts :=
    { holds with phase_eq := rfl }
  unfold finishProbe
  split
  · exact { done with }
  · exact done

end JoinState

namespace JoinRecord

/--
Where a join stands in the streams of its children.  It drains the right one, and
has accepted every block of it; or it failed at a right block, behind blocks that it
accepted; or it has accepted all right blocks up to the end of the stream and went
on to the left child.  As long as it is open it holds the rows that it accepted, and
those of a block that failed it are not among them.
-/
inductive Course : JoinRecord → Prop where
  | building
      {state : JoinState}
      {rights answers : List Block}
      (beforeProbing : state.phase.isBeforeProbing = true)
      (passes : state.plan.scanRight [] rights = ⟨rights, none⟩)
      (holds :
        state.closed = false →
          state.beginBuild.Holds state.plan .building (rowsOf rights) []) :
      Course ⟨state, rights, [], answers⟩
  | refused
      {state : JoinState}
      {stored answers : List Block}
      {block : Block}
      {cause : Fault}
      (failed : state.phase = .failed cause)
      (passes : state.plan.scanRight [] stored = ⟨stored, none⟩)
      (fails : state.plan.rightFault? (rowsOf stored) block = some cause)
      (holds :
        state.closed = false →
          state.beginBuild.Holds state.plan .building (rowsOf stored) []) :
      Course ⟨state, stored ++ [block], [], answers⟩
  | streaming
      {state : JoinState}
      {stored lefts answers : List Block}
      (pastBuilding : state.phase.isBeforeProbing = false)
      (passes : state.plan.scanRight [] stored = ⟨stored, none⟩)
      (holds :
        state.closed = false → state.phase.cause? = none →
          state.Holds state.plan state.phase (rowsOf stored) (rowsOf lefts)) :
      Course ⟨state, stored ++ [.ended], lefts, answers⟩

namespace Course

variable {state : JoinState} {rights lefts answers more : List Block}

/-- A join that was never pulled is at the start of its course. -/
theorem ofPlan (plan : JoinPlan) : Course ⟨.ofPlan plan, [], [], []⟩ :=
  .building rfl rfl fun _ => JoinState.holds_ofPlan plan

/-- A right block is a step of the course. -/
theorem receiveRight
    (course : Course ⟨state, rights, lefts, answers⟩)
    (opened : state.closed = false)
    (beforeProbing : state.phase.isBeforeProbing = true)
    (block : Block) :
    Course
      ⟨(state.beginBuild.receiveRight block).state, rights ++ [block], lefts,
        more⟩ := by
  cases course with
  | refused failed =>
      rw [failed] at beforeProbing
      cases beforeProbing
  | streaming pastBuilding =>
      rw [pastBuilding] at beforeProbing
      cases beforeProbing
  | building _ passes holds =>
      have holds := holds opened
      cases block with
      | failed cause => exact .refused rfl passes rfl fun _ => holds
      | ended =>
          exact .streaming rfl passes fun _ _ => JoinState.holds_finishBuild holds
      | idle =>
          refine .building rfl (scan_append_of_passes passes rfl rfl) fun _ => ?_
          rw [rowsOf_append, rowsOf_singleton]
          exact (List.append_nil (rowsOf rights)).symm ▸ holds
      | data batch =>
          cases outcome : state.plan.rightFault? (rowsOf rights) (.data batch) with
          | some fault =>
              simp only [JoinState.receiveRight,
                JoinState.store_of_fault holds outcome]
              exact .refused rfl passes outcome fun _ => holds
          | none =>
              obtain ⟨stored, storing, storedHolds⟩ :=
                JoinState.store_of_noFault holds outcome
              simp only [JoinState.receiveRight, storing]
              have plan_eq : stored.plan = state.plan := storedHolds.plan_eq
              have building : stored.phase = .building := storedHolds.phase_eq
              refine .building (by rw [building]; rfl) ?_ fun _ => ?_
              · rw [plan_eq]
                exact scan_append_of_passes passes rfl outcome
              · rw [JoinState.beginBuild_of_building building, plan_eq,
                  rowsOf_append, rowsOf_singleton]
                exact storedHolds

/-- A left block is a step of the course. -/
theorem receiveLeft
    (course : Course ⟨state, rights, lefts, answers⟩)
    (opened : state.closed = false)
    (probing : state.phase = .probing)
    (block : Block) :
    Course ⟨(state.receiveLeft block).state, rights, lefts ++ [block], more⟩ := by
  cases course with
  | building beforeProbing =>
      rw [probing] at beforeProbing
      cases beforeProbing
  | refused failed =>
      rw [probing] at failed
      cases failed
  | streaming _ passes holds =>
      have holds : state.Holds state.plan .probing _ _ :=
        probing ▸ holds opened (by rw [probing]; rfl)
      cases block with
      | failed cause => exact .streaming rfl passes nofun
      | idle =>
          refine
            .streaming (by rw [JoinState.receiveLeft, probing]; rfl)
              passes fun _ _ => ?_
          rw [rowsOf_append, rowsOf_singleton, JoinState.receiveLeft, probing]
          exact (List.append_nil (rowsOf lefts)).symm ▸ holds
      | ended =>
          have finished := JoinState.holds_finishProbe holds
          have plan_eq : (state.receiveLeft .ended).state.plan = state.plan :=
            JoinState.plan_receiveLeft
          have done : (state.receiveLeft .ended).state.phase = .done :=
            finished.phase_eq
          refine
            .streaming (by rw [done]; rfl) (plan_eq.symm ▸ passes) fun _ _ => ?_
          rw [rowsOf_append, rowsOf_singleton, plan_eq, done]
          exact (List.append_nil (rowsOf lefts)).symm ▸ finished
      | data batch =>
          have plan_eq :
              (state.receiveLeft (.data batch)).state.plan = state.plan :=
            JoinState.plan_receiveLeft
          cases outcome : state.plan.leftFault? _ (.data batch) with
          | some fault =>
              obtain ⟨_, failed⟩ := JoinState.probe_of_fault holds outcome
              refine .streaming ?_ (plan_eq.symm ▸ passes) fun _ noFailure => ?_
              · rw [JoinState.receiveLeft, failed]
                rfl
              · rw [JoinState.receiveLeft, failed] at noFailure
                cases noFailure
          | none =>
              obtain ⟨_, probedHolds⟩ := JoinState.probe_of_noFault holds outcome
              have stillProbing :
                  (state.receiveLeft (.data batch)).state.phase = .probing :=
                probedHolds.phase_eq
              refine
                .streaming (by rw [stillProbing]; rfl)
                  (plan_eq.symm ▸ passes) fun _ _ => ?_
              rw [rowsOf_append, rowsOf_singleton, plan_eq, stillProbing]
              exact probedHolds

/-- Closing is a step of the course. -/
theorem release (course : Course ⟨state, rights, lefts, answers⟩) :
    Course ⟨state.release, rights, lefts, answers⟩ := by
  cases course with
  | building beforeProbing passes _ => exact .building beforeProbing passes nofun
  | refused failed passes fails _ => exact .refused failed passes fails nofun
  | streaming pastBuilding passes _ => exact .streaming pastBuilding passes nofun

/--
A join that failed at right data failed for them, behind blocks that it accepted.
-/
theorem of_failedAtData
    {record : JoinRecord}
    {cause : Fault}
    {stored : List Block}
    {batch : Batch}
    (course : record.Course)
    (failed : record.state.phase = .failed cause)
    (atData : record.rights = stored ++ [.data batch]) :
    record.lefts = [] ∧
      record.state.plan.scanRight [] stored = ⟨stored, none⟩ ∧
      record.state.plan.rightFault? (rowsOf stored) (.data batch) = some cause ∧
      (record.state.closed = false →
        record.state.beginBuild.Holds record.state.plan .building (rowsOf stored)
          []) := by
  cases course with
  | building beforeProbing =>
      rw [failed] at beforeProbing
      cases beforeProbing
  | streaming => cases (List.append_singleton_inj.mp atData).2
  | refused failedFor passes fails holds =>
      obtain ⟨rfl, rfl⟩ := List.append_singleton_inj.mp atData
      obtain rfl := Phase.failed.inj (failedFor.symm.trans failed)
      exact ⟨rfl, passes, fails, holds⟩

/-- What a join answers does not matter for where it stands. -/
theorem withAnswers (course : Course ⟨state, rights, lefts, answers⟩) :
    Course ⟨state, rights, lefts, more⟩ := by
  cases course with
  | building beforeProbing passes holds =>
      exact .building beforeProbing passes holds
  | refused failed passes fails holds => exact .refused failed passes fails holds
  | streaming pastBuilding passes holds =>
      exact .streaming pastBuilding passes holds

end Course

/-- Every run follows the course. -/
theorem maintained_course : Maintained Course where
  receivesRight block opened beforeProbing course :=
    course.receiveRight opened beforeProbing block
  receivesLeft block opened probing course :=
    course.receiveLeft opened probing block
  repeatsLast _ course := course.withAnswers
  released course := course.release

end JoinRecord

namespace Noted

variable {State : Type} [Operator State]

/-- Without its notes, a noted operator does what it did. -/
theorem mirrors_operator :
    Operator.Mirrors (Noted.operator : Noted State → State) :=
  ⟨fun _ => rfl, fun _ => rfl⟩

end Noted

namespace BroadcastJoin

variable {Left Right : Type}

/-- A join whose children are noted from now on. -/
def noted (join : BroadcastJoin Left Right) :
    BroadcastJoin (Noted Left) (Noted Right) :=
  join.map (fun left => ⟨left, []⟩) (fun right => ⟨right, []⟩)

variable [Operator Left] [Drainable Right]

/--
A join behind some requests, with what its children and itself answered meanwhile.
-/
def recordAfter (join : BroadcastJoin Left Right) (calls : List Call) :
    JoinRecord :=
  (Operator.afterCalls join.noted calls).record (Operator.replies join calls)

section Erasing

variable (join : BroadcastJoin Left Right) (calls : List Call)

/-- Without the notes of its children, a join does what it did. -/
theorem mirrors_erase :
    Operator.Mirrors
      (map Noted.operator Noted.operator :
        BroadcastJoin (Noted Left) (Noted Right) → BroadcastJoin Left Right) :=
  mirrors_map Noted.mirrors_operator Noted.mirrors_operator

/-- Without the notes the noted join is the join itself. -/
theorem erase_afterCalls :
    (Operator.afterCalls join.noted calls).map Noted.operator Noted.operator =
      Operator.afterCalls join calls :=
  (mirrors_erase.afterCalls join.noted calls).symm

/-- The record of a run has the state that the join comes to. -/
theorem state_recordAfter :
    (join.recordAfter calls).state = (Operator.afterCalls join calls).state := by
  rw [← erase_afterCalls join calls]
  rfl

/-- A join answers alike with notes and without. -/
theorem replies_noted :
    Operator.replies join.noted calls = Operator.replies join calls :=
  (mirrors_erase.replies join.noted calls).symm

end Erasing

variable {left : Left} {right : Right} {spec : JoinSpec} {options : JoinOptions}
variable {order : BucketOrder} {join : BroadcastJoin Left Right}

/-- A maintained property that holds of a fresh join holds behind any requests. -/
theorem maintained_recordAfter
    {property : JoinRecord → Prop}
    (maintained : JoinRecord.Maintained property)
    (accepted : ofSpec left right spec options order = .ok join)
    (fresh : property ⟨.ofPlan join.state.plan, [], [], []⟩)
    (calls : List Call) :
    property (join.recordAfter calls) := by
  have start : property (join.noted.record []) := by
    rw [eq_ofPlan accepted]
    exact fresh
  have reached := maintained_afterCalls maintained start calls
  rw [replies_noted] at reached
  exact reached

/--
Behind any requests an accepted join stands somewhere in the streams of its
children.
-/
theorem course_recordAfter
    (accepted : ofSpec left right spec options order = .ok join)
    (calls : List Call) :
    (join.recordAfter calls).Course :=
  maintained_recordAfter JoinRecord.maintained_course accepted
    (.ofPlan join.state.plan) calls

/-- Behind any requests the record of an accepted join is true. -/
theorem kept_recordAfter
    (accepted : ofSpec left right spec options order = .ok join)
    (calls : List Call) :
    (join.recordAfter calls).Kept :=
  maintained_recordAfter JoinRecord.maintained_kept accepted
    (JoinRecord.kept_ofPlan join.state.plan) calls

end BroadcastJoin

end StreamJoin
