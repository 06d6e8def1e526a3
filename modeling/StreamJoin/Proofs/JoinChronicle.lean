import StreamJoin.Proofs.SharedCounters

namespace StreamJoin

/-!
# The chronicle of a join

A join reports the milestones of its life: that its table was built, each left block
that it probed, the sweep, its failure and its closing.  What it reported up to any
moment is determined by its record.  `JoinRecord.chronicle` reads the list off a
record, in the order in which the milestones must have happened.

A step of a join is chronicled if the milestones that it reports are what it adds to
the chronicle.  This holds for one block of a child, and so for a pull and for any
requests, if the children themselves report nothing.
-/

/--
Whether an event belongs to the life of a join, rather than to one pull or stored
block.
-/
def Event.isMilestone : Event → Bool
  | .tableBuilt _ _ _ => true
  | .leftBlockProbed _ _ _ => true
  | .unmatchedEmitted _ _ => true
  | .joinFailed _ _ _ => true
  | .joinClosed _ => true
  | _ => false

/-- The milestones of a list of events. -/
def milestonesOf (events : List Event) : List Event :=
  events.filter Event.isMilestone

/-- The milestones of two lists of events are those of one and of the other. -/
theorem milestonesOf_append (first later : List Event) :
    milestonesOf (first ++ later) = milestonesOf first ++ milestonesOf later :=
  List.filter_append ..

/-- The numbers of rows of a left block and of its answer. -/
def rowCounts (taken answered : Block) : Nat × Nat :=
  (taken.rows.length, answered.rows.length)

/-- The milestone of a left block with given numbers of rows. -/
def Event.ofProbe (kind : JoinKind) (counts : Nat × Nat) : Event :=
  .leftBlockProbed kind counts.1 counts.2

namespace JoinState

/-- The milestone of the completed table. -/
def builtMilestone (state : JoinState) : Event :=
  .tableBuilt state.kind state.stats.rightRows state.stats.distinctKeys

/--
The milestones behind those of all left blocks, of a join that would fail in some
phase.
-/
def lastMilestones (state : JoinState) (failing : Phase) : List Event :=
  (if state.kind.sweepsRight = true ∧ state.phase = .done then
      [.unmatchedEmitted state.kind state.stats.unmatchedRightRows]
    else
      []) ++
    state.phase.cause?.toList.map (.joinFailed state.kind failing) ++
    if state.closed then [.joinClosed state.kind] else []

variable {state : JoinState} {failing : Phase}

/-- A join that may still pull has no last milestone. -/
theorem lastMilestones_of_active (active : state.isActive = true) :
    state.lastMilestones failing = [] := by
  have noFailure := noFailure_of_active active
  have opened := (running_of_isActive active).1
  have notDone : state.phase ≠ .done := by
    intro done
    simp [isActive, done] at active
  simp [lastMilestones, noFailure, opened, notDone]

/-- The last milestone of a failed join is its failure. -/
theorem lastMilestones_of_failed
    {cause : Fault}
    (failed : state.phase = .failed cause)
    (opened : state.closed = false) :
    state.lastMilestones failing = [.joinFailed state.kind failing cause] := by
  simp [lastMilestones, failed, opened, Phase.cause?]

/-- The last milestone of a join that has ended is its sweep, if it has one. -/
theorem lastMilestones_of_done
    (done : state.phase = .done)
    (opened : state.closed = false) :
    state.lastMilestones failing =
      if state.kind.sweepsRight then
        [.unmatchedEmitted state.kind state.stats.unmatchedRightRows]
      else
        [] := by
  simp [lastMilestones, done, opened, Phase.cause?]

/-- Closing a join adds its closing to the last milestones. -/
theorem lastMilestones_release (opened : state.closed = false) :
    state.release.lastMilestones failing =
      state.lastMilestones failing ++ [.joinClosed state.kind] := by
  simp only [lastMilestones, opened, Bool.false_eq_true, if_false, List.append_nil]
  rfl

/-- The end of the left child is told of by the sweep, if there is one. -/
theorem lastMilestones_finishProbe (opened : state.closed = false) :
    state.finishProbe.state.lastMilestones failing =
      milestonesOf state.finishProbe.events := by
  unfold finishProbe
  cases sweeps : state.kind.sweepsRight with
  | true =>
      have done :
          ({ state with phase := .sweeping }.sweep).state.phase = .done := rfl
      rw [if_pos rfl, lastMilestones_of_done done opened]
      exact if_pos sweeps
  | false =>
      have done : { state with phase := .done }.phase = .done := rfl
      rw [if_neg Bool.false_ne_true, lastMilestones_of_done done opened]
      exact if_neg (Bool.eq_false_iff.mp sweeps)

variable {rows : List Row}

/-- A left block that fails the join is reported as a failure. -/
theorem events_probe_of_failed
    {cause : Fault}
    (answered : (state.probe rows).block = .failed cause) :
    (state.probe rows).events = [.joinFailed state.kind state.phase cause] := by
  unfold probe at answered ⊢
  split
  · next wrong =>
      simp only [wrong, fail, Block.failed.injEq] at answered
      rw [← answered]
      rfl
  · next right =>
      simp only [right] at answered ⊢
      split
      · next found =>
          simp only [found, fail, Block.failed.injEq] at answered
          rw [← answered]
          rfl
      · next noFault =>
          simp only [noFault] at answered
          cases answered

/-- A left block that was probed is reported with its rows and those it paired. -/
theorem events_probe_of_data (isData : (state.probe rows).block.isData = true) :
    (state.probe rows).events =
      [.leftBlockProbed state.kind rows.length
        (state.probe rows).block.rows.length] := by
  unfold probe at isData ⊢
  split
  · next wrong =>
      rw [wrong] at isData
      cases isData
  · next right =>
      simp only [right] at isData ⊢
      split
      · next found =>
          rw [found] at isData
          cases isData
      · rfl

/-- A repeated answer is no data. -/
theorem dataOf_lastBlock (state : JoinState) : dataOf [state.lastBlock] = [] := by
  unfold lastBlock
  split <;> rfl

end JoinState

namespace JoinRecord

/--
The numbers of rows of the left blocks that a join accepted, and of its answers to
them.
-/
def probes (record : JoinRecord) : List (Nat × Nat) :=
  List.zipWith rowCounts
    (dataOf (record.state.plan.acceptedLefts record.rights record.lefts))
    (dataOf record.answers)

/--
The phase in which a join is, or was when it failed, as far as its right child
tells.
-/
def runningPhase (record : JoinRecord) : Phase :=
  if .ended ∈ record.rights then .probing else .building

/-- The milestones of a join, read off its record. -/
def chronicle (record : JoinRecord) : List Event :=
  (if .ended ∈ record.rights then [record.state.builtMilestone] else []) ++
    record.probes.map (.ofProbe record.state.kind) ++
    record.state.lastMilestones record.runningPhase

/-- A change of a true record to a true one that the reported milestones tell of. -/
def Chronicled (before : JoinRecord) (events : List Event) (later : JoinRecord) :
    Prop :=
  before.Kept →
    later.Kept ∧ later.chronicle = before.chronicle ++ milestonesOf events

namespace Chronicled

variable {before middle later : JoinRecord} {events more : List Event}

/-- Nothing happened between a record and itself. -/
theorem refl (record : JoinRecord) : Chronicled record [] record :=
  fun kept => ⟨kept, (List.append_nil _).symm⟩

/-- Records are chronicled one stretch after the other. -/
theorem trans
    (first : Chronicled before events middle)
    (second : Chronicled middle more later) :
    Chronicled before (events ++ more) later := by
  intro kept
  obtain ⟨middleKept, middleTold⟩ := first kept
  obtain ⟨laterKept, laterTold⟩ := second middleKept
  refine ⟨laterKept, ?_⟩
  rw [laterTold, middleTold, milestonesOf_append, List.append_assoc]

/-- Only the milestones among the events matter. -/
theorem of_milestones_eq
    (chronicled : Chronicled before events later)
    (same : milestonesOf more = milestonesOf events) :
    Chronicled before more later := by
  intro kept
  rw [same]
  exact chronicled kept

end Chronicled

variable {state later : JoinState} {rights lefts answers stored : List Block}
variable {block answered : Block}

/--
Before the right child has ended, nothing but a failure and closing can have
happened.
-/
theorem chronicle_of_notBuilt (notBuilt : .ended ∉ rights) :
    chronicle ⟨state, rights, [], answers⟩ = state.lastMilestones .building := by
  have noProbes : probes ⟨state, rights, [], answers⟩ = [] := rfl
  simp only [chronicle, runningPhase, noProbes, notBuilt, if_false, List.map_nil,
    List.nil_append]

/-- Behind the end of the right input the chronicle begins with the table. -/
theorem chronicle_of_built (built : .ended ∈ rights) :
    chronicle ⟨state, rights, lefts, answers⟩ =
      state.builtMilestone ::
        (probes ⟨state, rights, lefts, answers⟩).map (.ofProbe state.kind) ++
          state.lastMilestones .probing := by
  simp only [chronicle, runningPhase, built, if_true, List.singleton_append]

/-- The table holds as many rows as were counted. -/
theorem Building.rightRows_eq
    (building : Building ⟨state, rights, [], answers⟩)
    (truthful : Truthful ⟨state, rights, [], answers⟩) :
    state.stats.rightRows = state.tableRows := by
  obtain ⟨stats_eq, _⟩ := truthful_building_iff.mp truthful
  have tableRows_eq : state.tableRows = (rowsOf rights).length :=
    building.holds.tableRows_eq
  rw [stats_eq, JoinPlan.tallyOf, JoinPlan.acceptedRights_of_passes building.passes,
    tableRows_eq]

/-- A right block adds to the chronicle the milestones of its events. -/
theorem chronicled_receiveRight
    (opened : state.closed = false)
    (beforeProbing : state.phase.isBeforeProbing = true)
    (block : Block) :
    Chronicled ⟨state, rights, lefts, answers⟩
      (state.beginBuild.receiveRight block).events
      ⟨(state.beginBuild.receiveRight block).state, rights ++ [block], lefts,
        answers ++ (state.beginBuild.receiveRight block).answer?.toList⟩ := by
  intro kept
  refine ⟨maintained_kept.receivesRight block opened beforeProbing kept, ?_⟩
  have active := JoinState.isActive_of_beforeProbing beforeProbing opened
  have building := kept.building active beforeProbing
  obtain rfl : lefts = [] := building.lefts_eq
  have notBuilt : .ended ∉ rights :=
    ended_notMem_of_passes (fun _ _ => rfl) building.passes
  have stillNotBuilt (goesOn : block.isEnd = false) :
      .ended ∉ rights ++ [block] := by
    simp [notBuilt, Block.ended_ne_of_goesOn goesOn]
  have begunActive : state.beginBuild.isActive = true :=
    JoinState.isActive_of_beforeProbing rfl opened
  rw [chronicle_of_notBuilt notBuilt, JoinState.lastMilestones_of_active active,
    List.nil_append]
  cases block with
  | idle =>
      rw [chronicle_of_notBuilt (stillNotBuilt rfl)]
      exact JoinState.lastMilestones_of_active begunActive
  | failed cause =>
      rw [chronicle_of_notBuilt (stillNotBuilt rfl)]
      exact JoinState.lastMilestones_of_failed rfl opened
  | ended =>
      have turnedActive : state.beginBuild.finishBuild.isActive = true :=
        JoinState.isActive_of_probing opened rfl
      have noProbes :
          probes
            ⟨state.beginBuild.finishBuild, rights ++ [.ended], [], answers ++ []⟩ =
              [] := rfl
      simp only [JoinState.receiveRight, Option.toList_none]
      rw [chronicle_of_built (by simp), noProbes,
        JoinState.lastMilestones_of_active turnedActive]
      exact
        congrArg
          (fun rows => [Event.tableBuilt state.kind rows state.table.keyCount])
          (building.rightRows_eq kept.truthful)
  | data batch =>
      cases outcome : state.beginBuild.store batch.rows with
      | error fault =>
          simp only [JoinState.receiveRight, outcome]
          rw [chronicle_of_notBuilt (stillNotBuilt rfl)]
          exact JoinState.lastMilestones_of_failed rfl opened
      | ok accepted =>
          simp only [JoinState.receiveRight, outcome]
          rw [chronicle_of_notBuilt (stillNotBuilt rfl)]
          apply JoinState.lastMilestones_of_active
          rw [JoinState.isActive_of_samePosition
            (JoinState.samePosition_store outcome)]
          exact begunActive

/-- A left block does not change what was counted of the right rows. -/
theorem builtMilestone_receiveLeft :
    (state.receiveLeft block).state.builtMilestone = state.builtMilestone := by
  cases block with
  | idle => rfl
  | failed cause => rfl
  | ended =>
      simp only [JoinState.receiveLeft, JoinState.finishProbe]
      split <;> rfl
  | data batch =>
      simp only [JoinState.receiveLeft, JoinState.probe]
      split
      · rfl
      · split <;> rfl

/-- Behind a left block stand the milestones of its probe, and the last ones. -/
theorem Probing.chronicle_receiveLeft
    {accepted : List Block}
    (probing : Probing ⟨state, rights, lefts, answers⟩ stored)
    (truthful : Truthful ⟨state, rights, lefts, answers⟩)
    (active : state.isActive = true)
    (accepted_eq :
      (state.plan.scanLeft (rowsOf stored) (rowsOf lefts) [block]).passed =
        accepted) :
    chronicle
        ⟨(state.receiveLeft block).state, rights, lefts ++ [block],
          answers ++ [(state.receiveLeft block).block]⟩ =
      chronicle ⟨state, rights, lefts, answers⟩ ++
        ((List.zipWith rowCounts (dataOf accepted)
            (dataOf [(state.receiveLeft block).block])).map (.ofProbe state.kind) ++
          (state.receiveLeft block).state.lastMilestones .probing) := by
  have built : .ended ∈ rights := by
    have rights_eq : rights = stored ++ [.ended] := probing.rights_eq
    simp [rights_eq]
  have lengths := probing.length_answers truthful
  have plan_eq : (state.receiveLeft block).state.plan = state.plan :=
    JoinState.plan_receiveLeft
  have kind_eq : (state.receiveLeft block).state.kind = state.kind :=
    congrArg JoinPlan.kind plan_eq
  rw [chronicle_of_built built, chronicle_of_built built,
    JoinState.lastMilestones_of_active active, List.append_nil,
    builtMilestone_receiveLeft, kind_eq]
  simp only [probes, plan_eq, probing.acceptedLefts_append,
    probing.acceptedLefts_eq, accepted_eq, dataOf_append]
  rw [List.zipWith_append lengths.symm, List.map_append]
  simp only [List.cons_append, List.append_assoc]

/-- A left block adds to the chronicle the milestones of its events. -/
theorem chronicled_receiveLeft
    (opened : state.closed = false)
    (probing : state.phase = .probing)
    (block : Block) :
    Chronicled ⟨state, rights, lefts, answers⟩ (state.receiveLeft block).events
      ⟨(state.receiveLeft block).state, rights, lefts ++ [block],
        answers ++ [(state.receiveLeft block).block]⟩ := by
  intro kept
  refine ⟨maintained_kept.receivesLeft block opened probing kept, ?_⟩
  have active := JoinState.isActive_of_probing opened probing
  obtain ⟨stored, streaming⟩ := kept.probing active probing
  have stillOpened : (state.receiveLeft block).state.closed = false :=
    JoinState.closed_receiveLeft.trans opened
  cases block with
  | idle =>
      rw [streaming.chronicle_receiveLeft kept.truthful active rfl]
      exact congrArg₂ (· ++ ·) rfl (JoinState.lastMilestones_of_active active)
  | failed cause =>
      have failed :
          (state.receiveLeft (.failed cause)).state.phase = .failed cause := rfl
      have told : milestonesOf (state.receiveLeft (.failed cause)).events = _ :=
        congrArg (fun phase => [Event.joinFailed state.kind phase cause]) probing
      rw [streaming.chronicle_receiveLeft kept.truthful active rfl, told]
      exact
        congrArg₂ (· ++ ·) rfl
          (JoinState.lastMilestones_of_failed failed stillOpened)
  | ended =>
      rw [streaming.chronicle_receiveLeft kept.truthful active rfl]
      exact congrArg₂ (· ++ ·) rfl (JoinState.lastMilestones_finishProbe opened)
  | data batch =>
      cases outcome : state.plan.leftFault? (rowsOf stored) (.data batch) with
      | some fault =>
          obtain ⟨answered, failed⟩ :=
            JoinState.probe_of_fault streaming.holds outcome
          have told : milestonesOf (state.receiveLeft (.data batch)).events = _ :=
            congrArg milestonesOf (JoinState.events_probe_of_failed answered)
          have refused :
              (state.plan.scanLeft (rowsOf stored) (rowsOf lefts)
                [.data batch]).passed = [] := by
            rw [JoinPlan.scanLeft_cons_of_fault rfl outcome]
          have sameKind :
              (state.receiveLeft (.data batch)).state.kind = state.kind :=
            congrArg JoinPlan.kind JoinState.plan_receiveLeft
          rw [streaming.chronicle_receiveLeft kept.truthful active refused, told,
            probing, ← sameKind]
          exact
            congrArg₂ (· ++ ·) rfl
              (JoinState.lastMilestones_of_failed failed stillOpened)
      | none =>
          obtain ⟨answered, probedHolds⟩ :=
            JoinState.probe_of_noFault streaming.holds outcome
          have isData : (state.probe batch.rows).block.isData = true := by
            rw [answered]
            rfl
          have told : milestonesOf (state.receiveLeft (.data batch)).events = _ :=
            congrArg milestonesOf (JoinState.events_probe_of_data isData)
          have accepts :
              (state.plan.scanLeft (rowsOf stored) (rowsOf lefts)
                  [.data batch]).passed =
                [.data batch] := by
            rw [JoinPlan.scanLeft_cons_of_noFault rfl outcome]
            rfl
          have stillActive :
              (state.receiveLeft (.data batch)).state.isActive = true :=
            JoinState.isActive_of_probing stillOpened probedHolds.phase_eq
          have answers_eq : dataOf [(state.receiveLeft (.data batch)).block] = _ :=
            List.filter_cons_of_pos isData
          rw [streaming.chronicle_receiveLeft kept.truthful active accepts, told,
            JoinState.lastMilestones_of_active stillActive, answers_eq]
          rfl

/-- A repeated answer is no milestone. -/
theorem chronicled_repeatsLast (inactive : state.isActive = false) :
    Chronicled ⟨state, rights, lefts, answers⟩ state.lastEvents
      ⟨state, rights, lefts, answers ++ [state.lastBlock]⟩ := by
  intro kept
  refine ⟨kept.append_lastBlock inactive, ?_⟩
  have untold : milestonesOf state.lastEvents = [] := by
    unfold JoinState.lastEvents
    split <;> rfl
  have sameProbes :
      probes ⟨state, rights, lefts, answers ++ [state.lastBlock]⟩ =
        probes ⟨state, rights, lefts, answers⟩ := by
    simp only [probes, dataOf_append, JoinState.dataOf_lastBlock, List.append_nil]
  rw [untold, List.append_nil, chronicle, sameProbes]
  rfl

/-- Closing adds itself to the chronicle. -/
theorem chronicled_release (opened : state.closed = false) :
    Chronicled ⟨state, rights, lefts, answers⟩ [.joinClosed state.kind]
      ⟨state.release, rights, lefts, answers⟩ := by
  intro kept
  refine ⟨kept.release, ?_⟩
  simp only [chronicle, List.append_assoc]
  exact
    congrArg₂ (· ++ ·) rfl
      (congrArg₂ (· ++ ·) rfl (JoinState.lastMilestones_release opened))

end JoinRecord

/-- An operator that reports nothing. -/
structure Operator.Silent (State : Type) [Operator State] : Prop where
  pull_eq : ∀ state : State, (Operator.pull state).events = []
  close_eq : ∀ state : State, (Operator.close state).events = []

/-- Queued sources report nothing. -/
theorem Replay.silent : Operator.Silent Replay := ⟨Replay.events_pull, fun _ => rfl⟩

/-- Noting the answers of a silent operator reports nothing. -/
theorem Noted.silent
    {State : Type}
    [Operator State]
    (silent : Operator.Silent State) :
    Operator.Silent (Noted State) :=
  ⟨fun noted => silent.pull_eq noted.operator,
    fun noted => silent.close_eq noted.operator⟩

namespace BroadcastJoin

open JoinRecord

variable {Left Right : Type} {join : BroadcastJoin (Noted Left) (Noted Right)}

/-- The events around a pull that is let through are no milestones. -/
theorem milestonesOf_framed
    (pulled : Pull (BroadcastJoin (Noted Left) (Noted Right))) :
    milestonesOf (join.framed pulled).events = milestonesOf pulled.events := by
  have framed_eq :
      milestonesOf (join.framed pulled).events =
        milestonesOf (pulled.events ++ [_]) := rfl
  rw [framed_eq, milestonesOf_append]
  exact List.append_nil _

variable [Drainable Right]

/-- Taking a right block adds to the chronicle what it reports. -/
theorem chronicled_receivedRight
    (answers : List Block)
    (silentRight : Operator.Silent Right)
    (opened : join.state.closed = false)
    (beforeProbing : join.state.phase.isBeforeProbing = true) :
    Chronicled (join.record answers) join.rightEvents
      (join.behindRight.record (answers ++ join.receivedRight.answer?.toList)) := by
  rw [rightEvents, (Noted.silent silentRight).pull_eq]
  exact
    chronicled_receiveRight opened beforeProbing (Operator.pull join.right).block

variable [Operator Left]

/-- Going on adds to the chronicle what it reports. -/
theorem chronicled_advance
    (answers : List Block)
    (silentLeft : Operator.Silent Left)
    (silentRight : Operator.Silent Right)
    (active : join.state.isActive = true) :
    Chronicled (join.record answers) join.advance.events
      (join.advance.next.record (answers ++ [join.advance.block])) := by
  apply advance_induction
    (motive := fun join pulled =>
      Chronicled (join.record answers) pulled.events
        (pulled.next.record (answers ++ [pulled.block])))
    _ _ _ active
  · intro join opened probing
    rw [pullLeft_eq_receive, (Noted.silent silentLeft).pull_eq]
    exact chronicled_receiveLeft opened probing (Operator.pull join.left).block
  · intro join answered opened beforeProbing answersRight
    have received :=
      chronicled_receivedRight answers silentRight opened beforeProbing
    rw [answersRight] at received
    exact received
  · intro join opened beforeProbing goesOn later
    have received :=
      chronicled_receivedRight answers silentRight opened beforeProbing
    rw [goesOn, Option.toList_none, List.append_nil] at received
    exact received.trans later

/-- A pull adds to the chronicle what it reports. -/
theorem chronicled_pull
    (silentLeft : Operator.Silent Left)
    (silentRight : Operator.Silent Right)
    (join : BroadcastJoin (Noted Left) (Noted Right))
    (answers : List Block) :
    Chronicled (join.record answers) join.pull.events
      (join.pull.next.record (answers ++ [join.pull.block])) := by
  cases active : join.state.isActive with
  | true =>
      rw [pull_of_isActive active]
      apply
        (chronicled_advance answers silentLeft silentRight active).of_milestones_eq
      exact milestonesOf_framed join.advance
  | false =>
      rw [pull_eq_of_inactive active]
      exact chronicled_repeatsLast active

/-- A closing adds to the chronicle what it reports. -/
theorem chronicled_close
    (silentLeft : Operator.Silent Left)
    (silentRight : Operator.Silent Right)
    (join : BroadcastJoin (Noted Left) (Noted Right))
    (answers : List Block) :
    Chronicled (join.record answers) join.close.events
      (join.close.next.record answers) := by
  unfold close
  split
  · exact .refl _
  · next opened =>
      simp only [(Noted.silent silentLeft).close_eq,
        (Noted.silent silentRight).close_eq]
      exact chronicled_release (Bool.eq_false_iff.mpr opened)

/-- Any requests add to the chronicle what they report. -/
theorem chronicled_afterCalls
    (silentLeft : Operator.Silent Left)
    (silentRight : Operator.Silent Right)
    (join : BroadcastJoin (Noted Left) (Noted Right))
    (answers : List Block)
    (calls : List Call) :
    Chronicled (join.record answers) (Operator.reports join calls)
      ((Operator.afterCalls join calls).record
        (answers ++ Operator.replies join calls)) := by
  induction calls generalizing join answers with
  | nil => exact (List.append_nil answers).symm ▸ .refl (join.record answers)
  | cons call rest inductionHypothesis =>
      cases call with
      | pull =>
          have later :=
            inductionHypothesis join.pull.next (answers ++ [join.pull.block])
          rw [List.append_assoc] at later
          exact (chronicled_pull silentLeft silentRight join answers).trans later
      | close =>
          have later := inductionHypothesis join.close.next answers
          exact (chronicled_close silentLeft silentRight join answers).trans later

variable {left : Left} {right : Right} {spec : JoinSpec} {options : JoinOptions}
variable {order : BucketOrder} {join : BroadcastJoin Left Right}

/--
The chronicle of an accepted join is what it told of its life, behind any requests.
-/
theorem chronicle_recordAfter
    (silentLeft : Operator.Silent Left)
    (silentRight : Operator.Silent Right)
    (accepted : ofSpec left right spec options order = .ok join)
    (calls : List Call) :
    (join.recordAfter calls).chronicle =
      milestonesOf (Operator.reports join calls) := by
  have start : join.noted.record [] = ⟨.ofPlan join.state.plan, [], [], []⟩ := by
    rw [eq_ofPlan accepted]
    rfl
  have chronicled :=
    chronicled_afterCalls silentLeft silentRight join.noted [] calls
  rw [start] at chronicled
  obtain ⟨_, told⟩ := chronicled (JoinRecord.kept_ofPlan join.state.plan)
  have nothingYet :
      JoinRecord.chronicle ⟨.ofPlan join.state.plan, [], [], []⟩ = [] :=
    (chronicle_of_notBuilt List.not_mem_nil).trans
      (JoinState.lastMilestones_of_active rfl)
  have sameEvents :
      Operator.reports join.noted calls = Operator.reports join calls :=
    (mirrors_erase.reports join.noted calls).symm
  rw [nothingYet, List.nil_append, List.nil_append, sameEvents,
    replies_noted] at told
  exact told

end BroadcastJoin

end StreamJoin
