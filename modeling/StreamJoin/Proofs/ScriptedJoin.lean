import StreamJoin.Proofs.HeldRows
import StreamJoin.Proofs.PullSteps
import StreamJoin.Proofs.Script

namespace StreamJoin

/-!
# Joins of scripted children

When the children of a join follow scripts, what the join answers to every pull is
determined by the two scripts.  A scan of the scripts, which knows nothing of
tables, marks or phases, finds the first failure and the blocks in front of it; the
join answers according to the scan.  The proof goes along the right script while the
join builds and then along the left one.
-/

/--
What a scan of a script finds: the blocks that pass, and the failure behind them.
-/
structure Scan where
  passed : List Block
  fault? : Option Fault
  deriving Repr, DecidableEq

/--
Go through a script up to the end of the stream or to the first block that fails.
Whether a block fails may depend on the rows before it.
-/
def scan (faultOf : List Row → Block → Option Fault) (before : List Row) :
    List Block → Scan
  | [] => ⟨[], none⟩
  | .ended :: _ => ⟨[], none⟩
  | block :: rest =>
      match faultOf before block with
      | some fault => ⟨[], some fault⟩
      | none =>
          let later := scan faultOf (before ++ block.rows) rest
          ⟨block :: later.passed, later.fault?⟩

section Scanning

variable {faultOf : List Row → Block → Option Fault} {before : List Row}
variable {block : Block} {rest : List Block}

/-- A scan stops at a block that fails. -/
theorem scan_cons_of_fault
    {fault : Fault}
    (notEnd : block.isEnd = false)
    (fails : faultOf before block = some fault) :
    scan faultOf before (block :: rest) = ⟨[], some fault⟩ := by
  cases block with
  | ended => cases notEnd
  | data batch => simp [scan, fails]
  | idle => simp [scan, fails]
  | failed cause => simp [scan, fails]

/-- A scan goes on behind a block that does not fail. -/
theorem scan_cons_of_noFault
    (notEnd : block.isEnd = false)
    (passes : faultOf before block = none) :
    scan faultOf before (block :: rest) =
      ⟨block :: (scan faultOf (before ++ block.rows) rest).passed,
        (scan faultOf (before ++ block.rows) rest).fault?⟩ := by
  cases block with
  | ended => cases notEnd
  | data batch => simp [scan, passes]
  | idle => simp [scan, passes]
  | failed cause => simp [scan, passes]

/-- A block that passes neither ends the stream nor fails. -/
theorem isTerminal_of_mem_passed
    {script : List Block}
    (failing : ∀ rows cause, faultOf rows (.failed cause) = some cause)
    (member : block ∈ (scan faultOf before script).passed) :
    block.isTerminal = false := by
  induction script generalizing before with
  | nil => cases member
  | cons first rest inductionHypothesis =>
      by_cases isEnd : first = .ended
      · subst isEnd
        cases member
      have notEnd : first.isEnd = false := by
        cases first with
        | ended => exact absurd rfl isEnd
        | data batch => rfl
        | idle => rfl
        | failed cause => rfl
      cases outcome : faultOf before first with
      | some fault =>
          rw [scan_cons_of_fault notEnd outcome] at member
          cases member
      | none =>
          rw [scan_cons_of_noFault notEnd outcome] at member
          rcases List.mem_cons.mp member with rfl | inRest
          · cases block with
            | ended => cases notEnd
            | data batch => rfl
            | idle => rfl
            | failed cause =>
                rw [failing before cause] at outcome
                cases outcome
          · exact inductionHypothesis inRest

/-- A script of which no block fails behind the rows before it passes as a whole. -/
theorem scan_of_passes
    {script : List Block}
    (goesOn : ∀ block ∈ script, block.isTerminal = false)
    (passes :
      ∀ earlier block later, script = earlier ++ block :: later →
        faultOf (before ++ rowsOf earlier) block = none) :
    scan faultOf before script = ⟨script, none⟩ := by
  induction script generalizing before with
  | nil => rfl
  | cons block rest inductionHypothesis =>
      have headPasses : faultOf before block = none := by
        simpa [rowsOf] using passes [] block rest rfl
      have notEnd : block.isEnd = false := by
        cases block with
        | ended => cases goesOn .ended List.mem_cons_self
        | data batch => rfl
        | idle => rfl
        | failed cause => rfl
      have restPasses :
          scan faultOf (before ++ block.rows) rest = ⟨rest, none⟩ := by
        apply inductionHypothesis
        · exact fun later member => goesOn later (List.mem_cons_of_mem block member)
        · intro earlier later final shape
          have whole := passes (block :: earlier) later final (by rw [shape]; rfl)
          rwa [rowsOf_cons, ← List.append_assoc] at whole
      rw [scan_cons_of_noFault notEnd headPasses, restPasses]

end Scanning

namespace JoinPlan

/-- The scan of a right script behind the right rows before it. -/
def scanRight (plan : JoinPlan) (before : List Row) (script : List Block) : Scan :=
  scan plan.rightFault? before script

/-- The scan of a left script, against all right rows. -/
def scanLeft (plan : JoinPlan) (rights before : List Row) (script : List Block) :
    Scan :=
  scan (fun _ => plan.leftFault? rights) before script

section Scripts

variable {plan : JoinPlan} {rights lefts : List Row} {block : Block}
  {rest : List Block}
variable {fault : Fault}

/-- The scan of the right blocks stops at one that fails. -/
theorem scanRight_cons_of_fault
    (notEnd : block.isEnd = false)
    (fails : plan.rightFault? rights block = some fault) :
    plan.scanRight rights (block :: rest) = ⟨[], some fault⟩ :=
  scan_cons_of_fault notEnd fails

/-- The scan of the right blocks goes on behind one that does not fail. -/
theorem scanRight_cons_of_noFault
    (notEnd : block.isEnd = false)
    (passes : plan.rightFault? rights block = none) :
    plan.scanRight rights (block :: rest) =
      ⟨block :: (plan.scanRight (rights ++ block.rows) rest).passed,
        (plan.scanRight (rights ++ block.rows) rest).fault?⟩ :=
  scan_cons_of_noFault notEnd passes

/-- The scan of the left blocks stops at one that fails. -/
theorem scanLeft_cons_of_fault
    (notEnd : block.isEnd = false)
    (fails : plan.leftFault? rights block = some fault) :
    plan.scanLeft rights lefts (block :: rest) = ⟨[], some fault⟩ :=
  scan_cons_of_fault notEnd fails

/-- The scan of the left blocks goes on behind one that does not fail. -/
theorem scanLeft_cons_of_noFault
    (notEnd : block.isEnd = false)
    (passes : plan.leftFault? rights block = none) :
    plan.scanLeft rights lefts (block :: rest) =
      ⟨block :: (plan.scanLeft rights (lefts ++ block.rows) rest).passed,
        (plan.scanLeft rights (lefts ++ block.rows) rest).fault?⟩ :=
  scan_cons_of_noFault notEnd passes

end Scripts

/-- What a join answers to a left block that passes. -/
def probed (plan : JoinPlan) (rights : List Row) : Block → Block
  | .data block => .ofRows (plan.nestedRows rights block.rows) plan.resultSchema
  | control => control

/-- The block of the final sweep, if the kind has one. -/
def sweepOf (plan : JoinPlan) (swept : List Row) : List Block :=
  if plan.kind.sweepsRight then [.ofRows swept plan.resultSchema] else []

end JoinPlan

namespace BroadcastJoin

variable {Left Right : Type} [Operator Left] [Drainable Right]
variable {plan : JoinPlan} {state : JoinState} {left : Left} {right : Right}
variable {rights lefts : List Row} {blocks : List Block} {last : Block}

/-- A join that may not pull answers its last block. -/
theorem answers_of_inactive
    {join : BroadcastJoin Left Right}
    (inactive : join.state.isActive = false) :
    Operator.Answers join [] join.state.lastBlock := by
  obtain ⟨answered, fixed⟩ := pull_of_inactive inactive
  exact Operator.answers_nil_of_fixed answered fixed

/-- A failed join answers its failure. -/
theorem answers_of_failedPhase
    {join : BroadcastJoin Left Right}
    {cause : Fault}
    (failed : join.state.phase = .failed cause) :
    Operator.Answers join [] (.failed cause) := by
  have inactive : join.state.isActive = false := by
    simp only [JoinState.isActive, failed]
  have answers := answers_of_inactive inactive
  rwa [JoinState.lastBlock, failed] at answers

/-- A join that has ended answers the end. -/
theorem answers_of_done
    {join : BroadcastJoin Left Right}
    (done : join.state.phase = .done) :
    Operator.Answers join [] .ended := by
  have inactive : join.state.isActive = false := by
    simp only [JoinState.isActive, done]
  have answers := answers_of_inactive inactive
  rwa [JoinState.lastBlock, done] at answers

section Building

/-- A building join answers what draining its right child gives. -/
theorem pull_of_building
    (left : Left)
    (right : Right)
    (holds : state.Holds plan .building rights []) :
    Operator.pull (BroadcastJoin.mk state left right) =
      framed ⟨state, left, right⟩ (pullRight ⟨state, left, right⟩) := by
  apply pull_of_beforeProbing
  · simp [holds.phase_eq, Phase.isBeforeProbing]
  · exact holds.opened

/-- While it builds, a join passes on a right block that says nothing. -/
theorem answers_building_idle
    (holds : state.Holds plan .building rights [])
    (answer : (Operator.pull right).block = .idle)
    (later :
      Operator.Answers
        (BroadcastJoin.mk state left (Operator.pull right).next) blocks last) :
    Operator.Answers (BroadcastJoin.mk state left right) (.idle :: blocks)
      last := by
  have pulled := pull_of_building left right holds
  rw [pullRight_idle answer,
    JoinState.beginBuild_of_building holds.phase_eq] at pulled
  apply Operator.answers_cons
  · rw [pulled]
    rfl
  · rw [pulled]
    exact later

/-- While it builds, a join fails with its right child. -/
theorem answers_building_failed
    {cause : Fault}
    (holds : state.Holds plan .building rights [])
    (answer : (Operator.pull right).block = .failed cause) :
    Operator.Answers (BroadcastJoin.mk state left right) [] (.failed cause) := by
  have pulled := pull_of_building left right holds
  rw [pullRight_failed answer] at pulled
  apply Operator.answers_nil
  · rw [pulled]
    rfl
  · rw [pulled]
    exact answers_of_failedPhase rfl

/-- While it builds, a join fails at a right block that cannot be stored. -/
theorem answers_building_refused
    {block : Batch}
    {fault : Fault}
    (holds : state.Holds plan .building rights [])
    (answer : (Operator.pull right).block = .data block)
    (refused : plan.rightFault? rights (.data block) = some fault) :
    Operator.Answers (BroadcastJoin.mk state left right) [] (.failed fault) := by
  have pulled := pull_of_building left right holds
  have notStored := JoinState.store_of_fault holds refused
  rw [← JoinState.beginBuild_of_building holds.phase_eq] at notStored
  rw [pullRight_refused answer notStored] at pulled
  apply Operator.answers_nil
  · rw [pulled]
    rfl
  · rw [pulled]
    exact answers_of_failedPhase rfl

/-- A stored block is not answered: the same pull goes on behind it. -/
theorem answers_building_stored
    {block : Batch}
    (left : Left)
    (holds : state.Holds plan .building rights [])
    (answer : (Operator.pull right).block = .data block)
    (accepted : plan.rightFault? rights (.data block) = none) :
    ∃ stored : JoinState,
      stored.Holds plan .building (rights ++ block.rows) [] ∧
        ∀ blocks last,
          Operator.Answers
            (BroadcastJoin.mk stored left (Operator.pull right).next) blocks last →
          Operator.Answers (BroadcastJoin.mk state left right) blocks last := by
  obtain ⟨stored, storing, storedHolds⟩ := JoinState.store_of_noFault holds accepted
  rw [← JoinState.beginBuild_of_building holds.phase_eq] at storing
  have pulled := pull_of_building left right holds
  have pulledLater := pull_of_building left (Operator.pull right).next storedHolds
  rw [pullRight_stored answer storing] at pulled
  refine ⟨stored, storedHolds, ?_⟩
  intro blocks last later
  refine Operator.answers_of_same_pull ?_ ?_ later
  · rw [pulled, pulledLater]
    rfl
  · rw [pulled, pulledLater]
    rfl

/-- Nor is the end of the right script: the same pull goes on to the left child. -/
theorem answers_building_ended
    (holds : state.Holds plan .building rights [])
    (answer : (Operator.pull right).block = .ended)
    (later :
      Operator.Answers
        (BroadcastJoin.mk state.finishBuild left (Operator.pull right).next)
        blocks last) :
    Operator.Answers (BroadcastJoin.mk state left right) blocks last := by
  have pulled := pull_of_building left right holds
  rw [pullRight_ended answer,
    JoinState.beginBuild_of_building holds.phase_eq] at pulled
  have turned := JoinState.holds_finishBuild holds
  have pulledLater :
      Operator.pull
          (BroadcastJoin.mk state.finishBuild left (Operator.pull right).next) =
        framed ⟨state.finishBuild, left, (Operator.pull right).next⟩
          (pullLeft ⟨state.finishBuild, left, (Operator.pull right).next⟩) :=
    pull_of_probing turned.phase_eq turned.opened
  refine Operator.answers_of_same_pull ?_ ?_ later
  · rw [pulled, pulledLater]
    rfl
  · rw [pulled, pulledLater]
    rfl

/--
A building join that meets a failure answers the idle blocks before it, and fails.
-/
theorem answers_building_of_fault
    {script : List Block}
    {fault : Fault}
    (left : Left)
    (holds : state.Holds plan .building rights [])
    (follows : Operator.Follows right script)
    (fails : (plan.scanRight rights script).fault? = some fault) :
    Operator.Answers (BroadcastJoin.mk state left right)
      (idlesOf (plan.scanRight rights script).passed) (.failed fault) := by
  induction script generalizing state right rights with
  | nil => cases fails
  | cons block rest inductionHypothesis =>
      obtain ⟨answer, laterFollows⟩ := follows
      cases block with
      | ended => cases fails
      | failed cause =>
          rw [JoinPlan.scanRight_cons_of_fault rfl rfl] at fails ⊢
          cases fails
          exact answers_building_failed holds answer
      | idle =>
          rw [JoinPlan.scanRight_cons_of_noFault rfl rfl] at fails ⊢
          simp only [Block.rows, List.append_nil] at fails ⊢
          rw [idlesOf_cons_idle]
          apply answers_building_idle holds answer
          exact inductionHypothesis holds (laterFollows rfl) fails
      | data block =>
          cases outcome : plan.rightFault? rights (.data block) with
          | some other =>
              rw [JoinPlan.scanRight_cons_of_fault rfl outcome] at fails ⊢
              cases fails
              exact answers_building_refused holds answer outcome
          | none =>
              rw [JoinPlan.scanRight_cons_of_noFault rfl outcome] at fails ⊢
              rw [idlesOf_cons_data]
              obtain ⟨stored, storedHolds, later⟩ :=
                answers_building_stored left holds answer outcome
              apply later
              exact inductionHypothesis storedHolds (laterFollows rfl) fails

/--
A building join that meets no failure answers the idle blocks of the right script
and goes on as a join that holds all right rows.
-/
theorem answers_building_of_noFault
    {script : List Block}
    (left : Left)
    (holds : state.Holds plan .building rights [])
    (follows : Operator.Follows right script)
    (sound : (plan.scanRight rights script).fault? = none) :
    ∃ (turned : JoinState) (ended : Right),
      turned.Holds plan .probing
          (rights ++ rowsOf (plan.scanRight rights script).passed) [] ∧
        ∀ blocks last,
          Operator.Answers (BroadcastJoin.mk turned left ended) blocks last →
          Operator.Answers (BroadcastJoin.mk state left right)
            (idlesOf (plan.scanRight rights script).passed ++ blocks) last := by
  induction script generalizing state right rights with
  | nil =>
      refine ⟨state.finishBuild, (Operator.pull right).next, ?_, ?_⟩
      · simpa [JoinPlan.scanRight, scan, rowsOf] using
          JoinState.holds_finishBuild holds
      · exact fun _ _ later => answers_building_ended holds follows later
  | cons block rest inductionHypothesis =>
      obtain ⟨answer, laterFollows⟩ := follows
      cases block with
      | ended =>
          refine ⟨state.finishBuild, (Operator.pull right).next, ?_, ?_⟩
          · simpa [JoinPlan.scanRight, scan, rowsOf] using
              JoinState.holds_finishBuild holds
          · exact fun _ _ later => answers_building_ended holds answer later
      | failed cause =>
          rw [JoinPlan.scanRight_cons_of_fault rfl rfl] at sound
          cases sound
      | idle =>
          rw [JoinPlan.scanRight_cons_of_noFault rfl rfl] at sound ⊢
          simp only [Block.rows, List.append_nil, rowsOf_cons, List.nil_append,
            idlesOf_cons_idle, List.cons_append] at sound ⊢
          obtain ⟨turned, ended, turnedHolds, later⟩ :=
            inductionHypothesis holds (laterFollows rfl) sound
          refine ⟨turned, ended, turnedHolds, ?_⟩
          exact fun blocks last answers =>
            answers_building_idle holds answer (later blocks last answers)
      | data block =>
          cases outcome : plan.rightFault? rights (.data block) with
          | some fault =>
              rw [JoinPlan.scanRight_cons_of_fault rfl outcome] at sound
              cases sound
          | none =>
              rw [JoinPlan.scanRight_cons_of_noFault rfl outcome] at sound ⊢
              simp only [Block.rows, rowsOf_cons, ← List.append_assoc,
                idlesOf_cons_data] at sound ⊢
              -- A stored block is not answered, so the answers to come stay the
              -- same.
              obtain ⟨stored, storedHolds, goesOn⟩ :=
                answers_building_stored left holds answer outcome
              obtain ⟨turned, ended, turnedHolds, later⟩ :=
                inductionHypothesis storedHolds (laterFollows rfl) sound
              refine ⟨turned, ended, turnedHolds, ?_⟩
              exact fun blocks last answers =>
                goesOn _ _ (later blocks last answers)

end Building

section Probing

/-- A probing join answers what taking a block from its left child gives. -/
theorem pull_of_holding
    (left : Left)
    (right : Right)
    (holds : state.Holds plan .probing rights lefts) :
    Operator.pull (BroadcastJoin.mk state left right) =
      framed ⟨state, left, right⟩ (pullLeft ⟨state, left, right⟩) :=
  pull_of_probing holds.phase_eq holds.opened

/-- While it probes, a join passes on a left block that says nothing. -/
theorem answers_probing_idle
    (holds : state.Holds plan .probing rights lefts)
    (answer : (Operator.pull left).block = .idle)
    (later :
      Operator.Answers
        (BroadcastJoin.mk state (Operator.pull left).next right) blocks last) :
    Operator.Answers (BroadcastJoin.mk state left right) (.idle :: blocks)
      last := by
  have pulled := pull_of_holding left right holds
  rw [pullLeft_idle answer] at pulled
  apply Operator.answers_cons
  · rw [pulled]
    rfl
  · rw [pulled]
    exact later

/-- While it probes, a join fails with its left child. -/
theorem answers_probing_failed
    {cause : Fault}
    (holds : state.Holds plan .probing rights lefts)
    (answer : (Operator.pull left).block = .failed cause) :
    Operator.Answers (BroadcastJoin.mk state left right) [] (.failed cause) := by
  have pulled := pull_of_holding left right holds
  rw [pullLeft_failed answer] at pulled
  apply Operator.answers_nil
  · rw [pulled]
    rfl
  · rw [pulled]
    exact answers_of_failedPhase rfl

/-- While it probes, a join fails at a left block that fails. -/
theorem answers_probing_refused
    {block : Batch}
    {fault : Fault}
    (holds : state.Holds plan .probing rights lefts)
    (answer : (Operator.pull left).block = .data block)
    (refused : plan.leftFault? rights (.data block) = some fault) :
    Operator.Answers (BroadcastJoin.mk state left right) [] (.failed fault) := by
  obtain ⟨answered, failed⟩ := JoinState.probe_of_fault holds refused
  have pulled := pull_of_holding left right holds
  rw [pullLeft_data answer] at pulled
  apply Operator.answers_nil
  · rw [pulled]
    exact answered
  · rw [pulled]
    exact answers_of_failedPhase failed

/--
A left block that passes is answered at once; the join goes on holding its rows.
-/
theorem answers_probing_data
    {block : Batch}
    (right : Right)
    (holds : state.Holds plan .probing rights lefts)
    (answer : (Operator.pull left).block = .data block)
    (accepted : plan.leftFault? rights (.data block) = none) :
    ∃ probed : JoinState,
      probed.Holds plan .probing rights (lefts ++ block.rows) ∧
        ∀ blocks last,
          Operator.Answers
            (BroadcastJoin.mk probed (Operator.pull left).next right) blocks last →
          Operator.Answers (BroadcastJoin.mk state left right)
            (plan.probed rights (.data block) :: blocks) last := by
  obtain ⟨answered, probedHolds⟩ := JoinState.probe_of_noFault holds accepted
  have pulled := pull_of_holding left right holds
  rw [pullLeft_data answer] at pulled
  refine ⟨_, probedHolds, ?_⟩
  intro blocks last later
  apply Operator.answers_cons
  · rw [pulled]
    exact answered
  · rw [pulled]
    exact later

/-- The end of the left input is answered by the sweep, if there is one. -/
theorem answers_probing_ended
    (holds : state.Holds plan .probing rights lefts)
    (answer : (Operator.pull left).block = .ended) :
    ∃ swept : List Row, swept.Perm (plan.sweptRows rights lefts) ∧
      Operator.Answers (BroadcastJoin.mk state left right) (plan.sweepOf swept)
        .ended := by
  have pulled := pull_of_holding left right holds
  rw [pullLeft_ended answer] at pulled
  cases sweeps : plan.kind.sweepsRight with
  | false =>
      obtain ⟨answered, done⟩ := JoinState.finishProbe_of_noSweep holds sweeps
      refine ⟨plan.sweptRows rights lefts, List.Perm.refl _, ?_⟩
      simp only [JoinPlan.sweepOf, sweeps, Bool.false_eq_true, if_false]
      apply Operator.answers_nil
      · rw [pulled]
        exact answered
      · rw [pulled]
        exact answers_of_done done
  | true =>
      obtain ⟨swept, unpaired, answered, done⟩ :=
        JoinState.finishProbe_of_sweep holds sweeps
      refine ⟨swept, unpaired, ?_⟩
      simp only [JoinPlan.sweepOf, sweeps, if_true]
      apply Operator.answers_cons
      · rw [pulled]
        exact answered
      · rw [pulled]
        exact answers_of_done done

/-- A probing join that meets a failure answers the blocks that pass, and fails. -/
theorem answers_probing_of_fault
    {script : List Block}
    {fault : Fault}
    (holds : state.Holds plan .probing rights lefts)
    (follows : Operator.Follows left script)
    (fails : (plan.scanLeft rights lefts script).fault? = some fault) :
    Operator.Answers (BroadcastJoin.mk state left right)
      ((plan.scanLeft rights lefts script).passed.map (plan.probed rights))
      (.failed fault) := by
  induction script generalizing state left lefts with
  | nil => cases fails
  | cons block rest inductionHypothesis =>
      obtain ⟨answer, laterFollows⟩ := follows
      cases block with
      | ended => cases fails
      | failed cause =>
          rw [JoinPlan.scanLeft_cons_of_fault rfl rfl] at fails ⊢
          cases fails
          exact answers_probing_failed holds answer
      | idle =>
          rw [JoinPlan.scanLeft_cons_of_noFault rfl rfl] at fails ⊢
          simp only [Block.rows, List.append_nil] at fails ⊢
          rw [List.map_cons]
          apply answers_probing_idle holds answer
          exact inductionHypothesis holds (laterFollows rfl) fails
      | data block =>
          cases outcome : plan.leftFault? rights (.data block) with
          | some other =>
              rw [JoinPlan.scanLeft_cons_of_fault rfl outcome] at fails ⊢
              cases fails
              exact answers_probing_refused holds answer outcome
          | none =>
              rw [JoinPlan.scanLeft_cons_of_noFault rfl outcome] at fails ⊢
              rw [List.map_cons]
              obtain ⟨probed, probedHolds, later⟩ :=
                answers_probing_data right holds answer outcome
              apply later
              exact inductionHypothesis probedHolds (laterFollows rfl) fails

/-- A probing join that meets no failure answers every left block, and the sweep. -/
theorem answers_probing_of_noFault
    {script : List Block}
    (right : Right)
    (holds : state.Holds plan .probing rights lefts)
    (follows : Operator.Follows left script)
    (sound : (plan.scanLeft rights lefts script).fault? = none) :
    ∃ swept : List Row,
      swept.Perm
          (plan.sweptRows rights
            (lefts ++ rowsOf (plan.scanLeft rights lefts script).passed)) ∧
        Operator.Answers (BroadcastJoin.mk state left right)
          ((plan.scanLeft rights lefts script).passed.map (plan.probed rights) ++
            plan.sweepOf swept)
          .ended := by
  induction script generalizing state left lefts with
  | nil =>
      simpa [JoinPlan.scanLeft, scan, rowsOf] using
        answers_probing_ended holds follows
  | cons block rest inductionHypothesis =>
      obtain ⟨answer, laterFollows⟩ := follows
      cases block with
      | ended =>
          simpa [JoinPlan.scanLeft, scan, rowsOf] using
            answers_probing_ended holds answer
      | failed cause =>
          rw [JoinPlan.scanLeft_cons_of_fault rfl rfl] at sound
          cases sound
      | idle =>
          rw [JoinPlan.scanLeft_cons_of_noFault rfl rfl] at sound ⊢
          simp only [Block.rows, List.append_nil, rowsOf_cons, List.nil_append]
            at sound ⊢
          obtain ⟨swept, unpaired, answers⟩ :=
            inductionHypothesis holds (laterFollows rfl) sound
          exact ⟨swept, unpaired, answers_probing_idle holds answer answers⟩
      | data block =>
          cases outcome : plan.leftFault? rights (.data block) with
          | some fault =>
              rw [JoinPlan.scanLeft_cons_of_fault rfl outcome] at sound
              cases sound
          | none =>
              rw [JoinPlan.scanLeft_cons_of_noFault rfl outcome] at sound ⊢
              simp only [Block.rows, rowsOf_cons, ← List.append_assoc] at sound ⊢
              obtain ⟨probed, probedHolds, later⟩ :=
                answers_probing_data right holds answer outcome
              obtain ⟨swept, unpaired, answers⟩ :=
                inductionHypothesis probedHolds (laterFollows rfl) sound
              exact ⟨swept, unpaired, later _ _ answers⟩

end Probing

end BroadcastJoin

end StreamJoin
