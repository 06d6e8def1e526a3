import StreamJoin.Proofs.HeldRows
import StreamJoin.Proofs.Script
import StreamJoin.Proofs.TerminalBlocks

namespace StreamJoin

/-!
# Joins in lockstep

Two joins with different plans stand over the same children and get the same
requests.  If the plans find the same failures in the blocks that the children hand
out, the joins stay in lockstep: they hold the same rows, although their tables may
group them differently, and at the same requests they answer the same control
blocks, the same left block, or the end of the left input.  If the plans agree also
about the rows that come out, the joins answer the same blocks; only their final
sweeps may differ, in the order of the rows.

The children may be any operators and the requests any list.  A pull keeps the
lockstep, which is the step; the run follows from it by induction along the
requests.
-/

/-- The rows that an operator hands out in front of its first terminal block. -/
inductive Operator.HandsOut {State : Type} [Operator State] :
    State → Row → Prop where
  | now
      {state : State}
      {batch : Batch}
      {row : Row}
      (answer : (pull state).block = .data batch)
      (member : row ∈ batch.rows) :
      HandsOut state row
  | later
      {state : State}
      {row : Row}
      (goesOn : (pull state).block.isTerminal = false)
      (handsOut : HandsOut (pull state).next row) :
      HandsOut state row

/-- A queued source hands out rows that it has queued in front of its first end. -/
theorem Replay.mem_rowsOf_of_handsOut
    {source : Replay}
    {row : Row}
    (handsOut : Operator.HandsOut source row) :
    row ∈ rowsOf (source.queued.takeWhile fun block => !block.isEnd) := by
  induction handsOut with
  | @now source batch row answer member =>
      obtain ⟨queued, pulls, closed⟩ := source
      cases queued with
      | nil => cases answer
      | cons block rest =>
          cases answer
          exact List.mem_append_left _ member
  | @later source row goesOn handsOut inductionHypothesis =>
      obtain ⟨queued, pulls, closed⟩ := source
      cases queued with
      | nil => cases goesOn
      | cons block rest =>
          have notEnd : (!block.isEnd) = true := by
            cases block with
            | ended => cases goesOn
            | failed cause => rfl
            | data batch => rfl
            | idle => rfl
          simp only [List.takeWhile_cons, notEnd, if_true]
          exact List.mem_append_right _ inductionHypothesis

/--
Plans that find the same first failure in each block of rows of certain kinds.
-/
structure JoinPlan.FaultsAlike
    (first second : JoinPlan)
    (leftRow rightRow : Row → Prop) : Prop where
  rightFault?_eq :
    ∀ rights block,
        (∀ row ∈ rights, rightRow row) → (∀ row ∈ block.rows, rightRow row) →
      first.rightFault? rights (.data block) =
        second.rightFault? rights (.data block)
  leftFault?_eq :
    ∀ rights block,
        (∀ row ∈ rights, rightRow row) → (∀ row ∈ block.rows, leftRow row) →
      first.leftFault? rights (.data block) = second.leftFault? rights (.data block)

/--
Plans that agree about left and right rows of certain kinds: about the first failure
in a block, about what a left row leads to, and about the unpaired right rows.
-/
structure JoinPlan.Agrees
    (first second : JoinPlan)
    (leftRow rightRow : Row → Prop) : Prop where
  resultSchema_eq : first.resultSchema = second.resultSchema
  sweepsRight_eq : first.kind.sweepsRight = second.kind.sweepsRight
  rightFault?_eq :
    ∀ rights block,
        (∀ row ∈ rights, rightRow row) → (∀ row ∈ block.rows, rightRow row) →
      first.rightFault? rights (.data block) =
        second.rightFault? rights (.data block)
  leftFault?_eq :
    ∀ rights block,
        (∀ row ∈ rights, rightRow row) → (∀ row ∈ block.rows, leftRow row) →
      first.leftFault? rights (.data block) = second.leftFault? rights (.data block)
  nestedRows_eq :
    ∀ rights lefts, (∀ row ∈ rights, rightRow row) → (∀ row ∈ lefts, leftRow row) →
      first.nestedRows rights lefts = second.nestedRows rights lefts
  sweptRows_eq :
    ∀ rights lefts, (∀ row ∈ rights, rightRow row) → (∀ row ∈ lefts, leftRow row) →
      first.sweptRows rights lefts = second.sweptRows rights lefts

/-- Plans that agree fail alike. -/
theorem JoinPlan.Agrees.faultsAlike
    {first second : JoinPlan}
    {leftRow rightRow : Row → Prop}
    (agrees : first.Agrees second leftRow rightRow) :
    first.FaultsAlike second leftRow rightRow :=
  ⟨agrees.rightFault?_eq, agrees.leftFault?_eq⟩

namespace BroadcastJoin

variable {Left Right : Type}

/--
Two answers that are final sweeps of the same rows: data blocks behind which the
joins have ended.
-/
def SweepAlike (first second : Pull (BroadcastJoin Left Right)) : Prop :=
  ∃ rows others schema,
    rows.Perm others ∧
      first.block = .ofRows rows schema ∧ second.block = .ofRows others schema ∧
      first.next.state.phase = .done ∧ second.next.state.phase = .done

/--
The answer of a join to the end of its left child: its sweep, or the end of the
stream.
-/
structure Finishes
    (plan : JoinPlan)
    (rights lefts : List Row)
    (block : Block)
    (next : BroadcastJoin Left Right) : Prop where
  done : next.state.phase = .done
  block_eq :
    plan.kind.sweepsRight = false ∧ block = .ended ∨
      plan.kind.sweepsRight = true ∧
        ∃ swept, swept.Perm (plan.sweptRows rights lefts) ∧
          block = .ofRows swept plan.resultSchema

/-- Behind the end of its left child a join sweeps if its kind does. -/
theorem finishes_finishProbe
    {state : JoinState}
    {plan : JoinPlan}
    {rights lefts : List Row}
    {next : BroadcastJoin Left Right}
    (holds : state.Holds plan .probing rights lefts)
    (state_eq : next.state = state.finishProbe.state) :
    Finishes plan rights lefts state.finishProbe.block next := by
  cases sweeps : plan.kind.sweepsRight with
  | false =>
      obtain ⟨ended, done⟩ := JoinState.finishProbe_of_noSweep holds sweeps
      exact ⟨(congrArg JoinState.phase state_eq).trans done, .inl ⟨sweeps, ended⟩⟩
  | true =>
      obtain ⟨swept, unpaired, answered, done⟩ :=
        JoinState.finishProbe_of_sweep holds sweeps
      exact
        ⟨(congrArg JoinState.phase state_eq).trans done,
          .inr ⟨sweeps, swept, unpaired, answered⟩⟩

variable [Operator Left]

/--
What two joins over the same children answer to the same pull, with their left child
before the pull and the joins behind it.
-/
inductive AnswersBeside
    (first second : JoinPlan)
    (leftRow rightRow : Row → Prop)
    (left : Left)
    (block otherBlock : Block)
    (next otherNext : BroadcastJoin Left Right) : Prop where
  | same
      (noData : block.isData = false)
      (goesOn : block.isEnd = false)
      (block_eq : block = otherBlock)
      (leftQuiet :
        next.left = left ∨ block.isFailed = true ∨
          (Operator.pull left).block.isData = false)
  | probed
      {taken : Batch}
      {rights : List Row}
      (takes : (Operator.pull left).block = .data taken)
      (rightRows : ∀ row ∈ rights, rightRow row)
      (takenRows : ∀ row ∈ taken.rows, leftRow row)
      (table_eq : next.state.table = first.tableOf rights)
      (block_eq :
        block = .ofRows (first.nestedRows rights taken.rows) first.resultSchema)
      (otherBlock_eq :
        otherBlock =
          .ofRows (second.nestedRows rights taken.rows) second.resultSchema)
  | finished
      {rights lefts : List Row}
      (leftEnds : (Operator.pull left).block = .ended)
      (rightRows : ∀ row ∈ rights, rightRow row)
      (leftRows : ∀ row ∈ lefts, leftRow row)
      (finishes : Finishes first rights lefts block next)
      (otherFinishes : Finishes second rights lefts otherBlock otherNext)

/-- Plans that agree about the rows as well lead to the same data. -/
theorem alike_of_answersBeside
    {first second : JoinPlan}
    {leftRow rightRow : Row → Prop}
    {left : Left}
    {pulled other : Pull (BroadcastJoin Left Right)}
    (agrees : first.Agrees second leftRow rightRow)
    (answers :
      AnswersBeside first second leftRow rightRow left pulled.block other.block
        pulled.next other.next) :
    pulled.block = other.block ∨ SweepAlike pulled other := by
  cases answers with
  | same _ _ block_eq => exact .inl block_eq
  | @probed taken rights _ rightRows takenRows _ block_eq otherBlock_eq =>
      have sameRows := agrees.nestedRows_eq rights taken.rows rightRows takenRows
      exact .inl (by rw [block_eq, otherBlock_eq, sameRows, agrees.resultSchema_eq])
  | @finished rights lefts _ rightRows leftRows finishes otherFinishes =>
      have sameRows := agrees.sweptRows_eq rights lefts rightRows leftRows
      rcases finishes.block_eq with
        ⟨noSweep, ended⟩ | ⟨sweeps, swept, unpaired, answered⟩
      · rcases otherFinishes.block_eq with ⟨_, otherEnded⟩ | ⟨otherSweeps, _⟩
        · exact .inl (ended.trans otherEnded.symm)
        · cases (agrees.sweepsRight_eq.symm.trans noSweep).symm.trans otherSweeps
      · rcases otherFinishes.block_eq with
            ⟨noSweep, _⟩ | ⟨_, otherSwept, otherUnpaired, otherAnswered⟩
        · cases (agrees.sweepsRight_eq.symm.trans sweeps).symm.trans noSweep
        · refine
            .inr
              ⟨swept, otherSwept, first.resultSchema, ?_, answered, ?_,
                finishes.done, otherFinishes.done⟩
          · exact unpaired.trans (sameRows ▸ otherUnpaired.symm)
          · rw [otherAnswered, agrees.resultSchema_eq]

variable [Drainable Right]

/--
Two joins over the same children: both may pull and hold the same rows, or neither
may pull and they repeat the same block.
-/
inductive Lockstep
    (first second : JoinPlan)
    (leftRow rightRow : Row → Prop) :
    BroadcastJoin Left Right → BroadcastJoin Left Right → Prop where
  | running
      {state other : JoinState}
      {phase : Phase}
      {rights lefts : List Row}
      (left : Left)
      (right : Right)
      (holds : state.Holds first phase rights lefts)
      (otherHolds : other.Holds second phase rights lefts)
      (rightRows : ∀ row ∈ rights, rightRow row)
      (leftRows : ∀ row ∈ lefts, leftRow row)
      (position :
        phase.isBeforeProbing = true ∧ lefts = [] ∧
            (∀ row, Operator.HandsOut right row → rightRow row) ∨
          phase = .probing)
      (leftComes : ∀ row, Operator.HandsOut left row → leftRow row) :
      Lockstep first second leftRow rightRow ⟨state, left, right⟩
        ⟨other, left, right⟩
  | stopped
      {join other : BroadcastJoin Left Right}
      (inactive : join.state.isActive = false)
      (otherInactive : other.state.isActive = false)
      (lastBlock_eq : join.state.lastBlock = other.state.lastBlock) :
      Lockstep first second leftRow rightRow join other

/--
A pull of two joins in lockstep: what they answer, and that the lockstep is kept.
-/
structure StepsBeside
    (first second : JoinPlan)
    (leftRow rightRow : Row → Prop)
    (left : Left)
    (pulled other : Pull (BroadcastJoin Left Right)) : Prop where
  answers :
    AnswersBeside first second leftRow rightRow left pulled.block other.block
      pulled.next other.next
  next : Lockstep first second leftRow rightRow pulled.next other.next

section Steps

variable {first second : JoinPlan} {leftRow rightRow : Row → Prop}
variable {join other : BroadcastJoin Left Right}

/-- Joins that failed with the same cause are in lockstep. -/
theorem lockstep_of_failed
    {cause : Fault}
    (failed : join.state.phase = .failed cause)
    (otherFailed : other.state.phase = .failed cause) :
    Lockstep first second leftRow rightRow join other := by
  apply Lockstep.stopped
  · simp only [JoinState.isActive, failed]
  · simp only [JoinState.isActive, otherFailed]
  · simp only [JoinState.lastBlock, failed, otherFailed]

/-- Joins that have ended are in lockstep. -/
theorem lockstep_of_done
    (done : join.state.phase = .done)
    (otherDone : other.state.phase = .done) :
    Lockstep first second leftRow rightRow join other := by
  apply Lockstep.stopped
  · simp only [JoinState.isActive, done]
  · simp only [JoinState.isActive, otherDone]
  · simp only [JoinState.lastBlock, done, otherDone]

/-- Of two joins in lockstep both build or none. -/
theorem Lockstep.isBeforeProbing
    (lockstep : Lockstep first second leftRow rightRow join other)
    (active : join.state.isActive = true)
    (beforeProbing : join.state.phase.isBeforeProbing = true) :
    other.state.phase.isBeforeProbing = true := by
  cases lockstep with
  | stopped inactive =>
      rw [active] at inactive
      cases inactive
  | running left right holds otherHolds =>
      simp only [holds.phase_eq] at beforeProbing
      simp only [otherHolds.phase_eq, beforeProbing]

/-- Joins in lockstep of which one may pull are over the same left child. -/
theorem Lockstep.left_eq
    (lockstep : Lockstep first second leftRow rightRow join other)
    (active : join.state.isActive = true) :
    other.left = join.left := by
  cases lockstep with
  | stopped inactive =>
      rw [active] at inactive
      cases inactive
  | running => rfl

/-- Of two joins in lockstep both may pull or none. -/
theorem Lockstep.isActive_eq
    (lockstep : Lockstep first second leftRow rightRow join other) :
    other.state.isActive = join.state.isActive := by
  cases lockstep with
  | stopped inactive otherInactive => exact otherInactive.trans inactive.symm
  | running left right holds otherHolds =>
      simp only [JoinState.isActive, holds.phase_eq, otherHolds.phase_eq,
        holds.opened, otherHolds.opened]

variable {state otherState : JoinState} {plan : JoinPlan} {phase : Phase}
variable {rights lefts : List Row}

/-- Two joins that hold the same rows take a left block side by side. -/
theorem stepsBeside_pullLeft
    {left : Left}
    {right : Right}
    (alike : first.FaultsAlike second leftRow rightRow)
    (holds : state.Holds first .probing rights lefts)
    (otherHolds : otherState.Holds second .probing rights lefts)
    (rightRows : ∀ row ∈ rights, rightRow row)
    (leftRows : ∀ row ∈ lefts, leftRow row)
    (leftComes : ∀ row, Operator.HandsOut left row → leftRow row) :
    StepsBeside first second leftRow rightRow left (pullLeft ⟨state, left, right⟩)
      (pullLeft ⟨otherState, left, right⟩) := by
  have laterComes :
      (Operator.pull left).block.isTerminal = false →
        ∀ row, Operator.HandsOut (Operator.pull left).next row → leftRow row :=
    fun goesOn row handsOut => leftComes row (.later goesOn handsOut)
  cases answer : (Operator.pull left).block with
  | idle =>
      simp only [answer, Block.isTerminal, forall_true_left] at laterComes
      simp only [pullLeft_idle answer]
      exact {
        answers := .same rfl rfl rfl (.inr (.inr (by rw [answer]; rfl)))
        next :=
          .running _ _ holds otherHolds rightRows leftRows (.inr rfl) laterComes
      }
  | failed cause =>
      simp only [pullLeft_failed answer]
      exact {
        answers := .same rfl rfl rfl (.inr (.inl rfl))
        next := lockstep_of_failed rfl rfl
      }
  | ended =>
      simp only [pullLeft_ended answer]
      have finishes :
          Finishes first rights lefts state.finishProbe.block
            ⟨state.finishProbe.state, (Operator.pull left).next, right⟩ :=
        finishes_finishProbe holds rfl
      have otherFinishes :
          Finishes second rights lefts otherState.finishProbe.block
            ⟨otherState.finishProbe.state, (Operator.pull left).next, right⟩ :=
        finishes_finishProbe otherHolds rfl
      exact {
        answers := .finished answer rightRows leftRows finishes otherFinishes
        next := lockstep_of_done finishes.done otherFinishes.done
      }
  | data taken =>
      have takenRows : ∀ row ∈ taken.rows, leftRow row :=
        fun row member => leftComes row (.now answer member)
      have sameFault := alike.leftFault?_eq rights taken rightRows takenRows
      simp only [answer, Block.isTerminal, forall_true_left] at laterComes
      simp only [pullLeft_data answer]
      cases outcome : first.leftFault? rights (.data taken) with
      | some fault =>
          obtain ⟨answered, failed⟩ := JoinState.probe_of_fault holds outcome
          obtain ⟨otherAnswered, otherFailed⟩ :=
            JoinState.probe_of_fault otherHolds (sameFault.symm.trans outcome)
          refine ⟨?_, lockstep_of_failed failed otherFailed⟩
          rw [answered, otherAnswered]
          exact .same rfl rfl rfl (.inr (.inl rfl))
      | none =>
          obtain ⟨answered, laterHolds⟩ := JoinState.probe_of_noFault holds outcome
          obtain ⟨otherAnswered, otherLaterHolds⟩ :=
            JoinState.probe_of_noFault otherHolds (sameFault.symm.trans outcome)
          have allRows : ∀ row ∈ lefts ++ taken.rows, leftRow row := by
            intro row member
            rcases List.mem_append.mp member with before | now
            · exact leftRows row before
            · exact takenRows row now
          exact {
            answers :=
              .probed answer rightRows takenRows laterHolds.table_eq answered
                otherAnswered
            next :=
              .running _ _ laterHolds otherLaterHolds rightRows allRows (.inr rfl)
                laterComes
          }

/-- A join that begins to drain its right child holds what it held. -/
theorem holds_beginBuild
    (holds : state.Holds plan phase rights []) :
    state.beginBuild.Holds plan .building rights [] :=
  { holds with phase_eq := rfl }

/--
Joins in lockstep take the next right block alike, and stay in lockstep behind it.
-/
theorem lockstep_behindRight
    (alike : first.FaultsAlike second leftRow rightRow)
    (lockstep : Lockstep first second leftRow rightRow join other)
    (opened : join.state.closed = false)
    (beforeProbing : join.state.phase.isBeforeProbing = true) :
    join.receivedRight.answer? = other.receivedRight.answer? ∧
      Lockstep first second leftRow rightRow join.behindRight
        other.behindRight := by
  have active := JoinState.isActive_of_beforeProbing beforeProbing opened
  cases lockstep with
  | stopped inactive =>
      rw [active] at inactive
      cases inactive
  | @running state otherState phase rights lefts left right holds otherHolds
      rightRows _ position leftComes =>
        obtain ⟨_, rfl, rightComes⟩ | rfl := position
        · have building := holds_beginBuild holds
          have otherBuilding := holds_beginBuild otherHolds
          have noLefts : ∀ row ∈ ([] : List Row), leftRow row := nofun
          have laterComes :
              (Operator.pull right).block.isTerminal = false →
                ∀ row,
                  Operator.HandsOut (Operator.pull right).next row → rightRow row :=
            fun goesOn row handsOut => rightComes row (.later goesOn handsOut)
          simp only [behindRight, receivedRight]
          cases answer : (Operator.pull right).block with
          | idle =>
              simp only [answer, Block.isTerminal, forall_true_left] at laterComes
              exact
                ⟨rfl,
                  .running _ _ building otherBuilding rightRows noLefts
                    (.inl ⟨rfl, rfl, laterComes⟩) leftComes⟩
          | failed cause => exact ⟨rfl, lockstep_of_failed rfl rfl⟩
          | ended =>
              exact
                ⟨rfl,
                  .running _ _ (JoinState.holds_finishBuild building)
                    (JoinState.holds_finishBuild otherBuilding) rightRows noLefts
                    (.inr rfl) leftComes⟩
          | data batch =>
              have batchRows : ∀ row ∈ batch.rows, rightRow row :=
                fun row member => rightComes row (.now answer member)
              have sameFault :=
                alike.rightFault?_eq rights batch rightRows batchRows
              simp only [answer, Block.isTerminal, forall_true_left] at laterComes
              simp only [JoinState.receiveRight]
              cases outcome : first.rightFault? rights (.data batch) with
              | some fault =>
                  have otherOutcome := sameFault.symm.trans outcome
                  simp only [JoinState.store_of_fault building outcome,
                    JoinState.store_of_fault otherBuilding otherOutcome]
                  exact ⟨trivial, lockstep_of_failed rfl rfl⟩
              | none =>
                  obtain ⟨stored, storing, storedHolds⟩ :=
                    JoinState.store_of_noFault building outcome
                  obtain ⟨otherStored, otherStoring, otherStoredHolds⟩ :=
                    JoinState.store_of_noFault otherBuilding
                      (sameFault.symm.trans outcome)
                  have allRows : ∀ row ∈ rights ++ batch.rows, rightRow row := by
                    intro row member
                    rcases List.mem_append.mp member with before | now
                    · exact rightRows row before
                    · exact batchRows row now
                  simp only [storing, otherStoring]
                  exact
                    ⟨trivial,
                      .running _ _ storedHolds otherStoredHolds allRows noLefts
                        (.inl ⟨rfl, rfl, laterComes⟩) leftComes⟩
        · rw [holds.phase_eq] at beforeProbing
          cases beforeProbing

/-- Two joins in lockstep go on side by side. -/
theorem stepsBeside_advance
    (alike : first.FaultsAlike second leftRow rightRow)
    (lockstep : Lockstep first second leftRow rightRow join other)
    (active : join.state.isActive = true) :
    StepsBeside first second leftRow rightRow join.left join.advance
      other.advance := by
  apply advance_induction
    (motive := fun join pulled =>
      ∀ other, Lockstep first second leftRow rightRow join other →
        StepsBeside first second leftRow rightRow join.left pulled other.advance)
    _ _ _ active other lockstep
  · intro join opened probing other lockstep
    cases lockstep with
    | stopped inactive =>
        rw [JoinState.isActive_of_probing opened probing] at inactive
        cases inactive
    | @running state otherState phase rights lefts left right holds otherHolds
        rightRows leftRows position leftComes =>
          obtain rfl : phase = .probing := holds.phase_eq.symm.trans probing
          have otherAdvance :
              (BroadcastJoin.mk otherState left right).advance =
                pullLeft ⟨otherState, left, right⟩ := by
            simp only [advance, otherHolds.phase_eq]
          rw [otherAdvance]
          exact
            stepsBeside_pullLeft alike holds otherHolds rightRows leftRows leftComes
  · intro join answered opened beforeProbing answers other lockstep
    have active := JoinState.isActive_of_beforeProbing beforeProbing opened
    have otherBeforeProbing := lockstep.isBeforeProbing active beforeProbing
    obtain ⟨sameAnswer, behind⟩ :=
      lockstep_behindRight alike lockstep opened beforeProbing
    rw [advance_of_beforeProbing otherBeforeProbing,
      pullRight_of_answer (sameAnswer.symm.trans answers)]
    refine ⟨?_, behind⟩
    obtain ⟨noData, goesOn⟩ := JoinState.control_of_receiveRight answers
    exact .same noData goesOn rfl (.inl rfl)
  · intro join opened beforeProbing goesOn later other lockstep
    have active := JoinState.isActive_of_beforeProbing beforeProbing opened
    have otherBeforeProbing := lockstep.isBeforeProbing active beforeProbing
    obtain ⟨sameAnswer, behind⟩ :=
      lockstep_behindRight alike lockstep opened beforeProbing
    rw [advance_of_beforeProbing otherBeforeProbing,
      pullRight_of_goesOn (sameAnswer.symm.trans goesOn)]
    obtain ⟨answers, next⟩ := later _ behind
    exact ⟨answers, next⟩

/-- Two joins in lockstep are pulled side by side. -/
theorem stepsBeside_pull
    (alike : first.FaultsAlike second leftRow rightRow)
    (lockstep : Lockstep first second leftRow rightRow join other)
    (active : join.state.isActive = true) :
    StepsBeside first second leftRow rightRow join.left join.pull other.pull := by
  have otherActive := lockstep.isActive_eq.trans active
  rw [pull_of_isActive active, pull_of_isActive otherActive]
  obtain ⟨answers, next⟩ := stepsBeside_advance alike lockstep active
  exact ⟨answers, next⟩

/--
Joins in lockstep that may not pull repeat the same block and stay as they are.
-/
theorem Lockstep.repeats
    (lockstep : Lockstep first second leftRow rightRow join other)
    (inactive : join.state.isActive = false) :
    join.pull.block = other.pull.block ∧ join.pull.next = join ∧
      other.pull.next = other := by
  have otherInactive := lockstep.isActive_eq.trans inactive
  obtain ⟨answered, fixed⟩ := pull_of_inactive inactive
  obtain ⟨otherAnswered, otherFixed⟩ := pull_of_inactive otherInactive
  refine ⟨?_, fixed, otherFixed⟩
  cases lockstep with
  | stopped _ _ lastBlock_eq => rw [answered, otherAnswered, lastBlock_eq]
  | running left right holds otherHolds =>
      have samePhase := holds.phase_eq.trans otherHolds.phase_eq.symm
      rw [answered, otherAnswered, JoinState.lastBlock_of_phase_eq samePhase]

/-- A pull keeps two joins in lockstep. -/
theorem lockstep_pull
    (alike : first.FaultsAlike second leftRow rightRow)
    (lockstep : Lockstep first second leftRow rightRow join other) :
    Lockstep first second leftRow rightRow join.pull.next other.pull.next := by
  cases active : join.state.isActive with
  | true => exact (stepsBeside_pull alike lockstep active).next
  | false =>
      obtain ⟨_, fixed, otherFixed⟩ := lockstep.repeats active
      rw [fixed, otherFixed]
      exact lockstep

/-- Closing stops both joins at the same last block. -/
theorem lockstep_close
    (lockstep : Lockstep first second leftRow rightRow join other) :
    Lockstep first second leftRow rightRow join.close.next other.close.next := by
  obtain ⟨samePhase, inactive⟩ := close_settled join
  obtain ⟨otherSamePhase, otherInactive⟩ := close_settled other
  apply Lockstep.stopped inactive otherInactive
  rw [JoinState.lastBlock_of_phase_eq samePhase,
    JoinState.lastBlock_of_phase_eq otherSamePhase]
  cases lockstep with
  | stopped _ _ lastBlock_eq => exact lastBlock_eq
  | running _ _ holds otherHolds =>
      exact
        JoinState.lastBlock_of_phase_eq
          (holds.phase_eq.trans otherHolds.phase_eq.symm)

/-- Any requests keep two joins in lockstep. -/
theorem lockstep_afterCalls
    (alike : first.FaultsAlike second leftRow rightRow)
    (lockstep : Lockstep first second leftRow rightRow join other)
    (calls : List Call) :
    Lockstep first second leftRow rightRow (Operator.afterCalls join calls)
      (Operator.afterCalls other calls) := by
  induction calls generalizing join other with
  | nil => exact lockstep
  | cons call rest inductionHypothesis =>
      cases call with
      | pull => exact inductionHypothesis (lockstep_pull alike lockstep)
      | close => exact inductionHypothesis (lockstep_close lockstep)

/-- Freshly built joins over the same children start in lockstep. -/
theorem lockstep_ofPlan
    {left : Left}
    {right : Right}
    (leftComes : ∀ row, Operator.HandsOut left row → leftRow row)
    (rightComes : ∀ row, Operator.HandsOut right row → rightRow row) :
    Lockstep first second leftRow rightRow ⟨.ofPlan first, left, right⟩
      ⟨.ofPlan second, left, right⟩ := by
  have fresh (plan : JoinPlan) : (JoinState.ofPlan plan).Holds plan .fresh [] [] :=
    { JoinState.holds_ofPlan plan with phase_eq := rfl }
  exact
    .running left right (fresh first) (fresh second) nofun nofun
      (.inl ⟨rfl, rfl, rightComes⟩) leftComes

end Steps

/-- Two answers in lockstep. -/
structure AnswersAlike
    (first second : JoinPlan)
    (leftRow rightRow : Row → Prop)
    (pulled other : Pull (BroadcastJoin Left Right)) : Prop where
  block : pulled.block = other.block ∨ SweepAlike pulled other
  next : Lockstep first second leftRow rightRow pulled.next other.next

section Answers

variable {first second : JoinPlan} {leftRow rightRow : Row → Prop}

/-- Two joins in lockstep, whose plans agree, answer a pull alike. -/
theorem answersAlike_pull
    {join other : BroadcastJoin Left Right}
    (agrees : first.Agrees second leftRow rightRow)
    (lockstep : Lockstep first second leftRow rightRow join other) :
    AnswersAlike first second leftRow rightRow join.pull other.pull where
  block := by
    cases active : join.state.isActive with
    | true =>
        exact
          alike_of_answersBeside agrees
            (stepsBeside_pull agrees.faultsAlike lockstep active).answers
    | false => exact .inl (lockstep.repeats active).1
  next := lockstep_pull agrees.faultsAlike lockstep

/-- After any requests, the next pulls of two joins in lockstep answer alike. -/
theorem answersAlike_afterCalls
    {left : Left}
    {right : Right}
    (agrees : first.Agrees second leftRow rightRow)
    (leftComes : ∀ row, Operator.HandsOut left row → leftRow row)
    (rightComes : ∀ row, Operator.HandsOut right row → rightRow row)
    (calls : List Call) :
    AnswersAlike first second leftRow rightRow
      (Operator.pull
        (Operator.afterCalls (BroadcastJoin.mk (.ofPlan first) left right) calls))
      (Operator.pull
        (Operator.afterCalls (BroadcastJoin.mk (.ofPlan second) left right)
          calls)) := by
  apply answersAlike_pull agrees
  exact
    lockstep_afterCalls agrees.faultsAlike (lockstep_ofPlan leftComes rightComes)
      calls

end Answers

end BroadcastJoin

end StreamJoin
