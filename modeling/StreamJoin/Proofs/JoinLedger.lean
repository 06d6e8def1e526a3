import StreamJoin.Proofs.HistoryTally
import StreamJoin.Proofs.ReceivedBlocks
import StreamJoin.Proofs.TerminalBlocks

namespace StreamJoin

/-!
# The record of a join stays true

The statistics of a join are those of its history in every state that it reaches.
`JoinRecord.Kept` is the invariant.  It is shown for every block that a join
receives, and says besides that what a join holds while it may pull is what it
accepted.
-/

namespace JoinState

variable {state stored : JoinState} {rows : List Row}

/-- A stored block is counted, and its rows. -/
theorem stats_store (accepted : state.store rows = .ok stored) :
    stored.stats =
      { state.stats with
        rightBlocks := state.stats.rightBlocks + 1
        rightRows := state.stats.rightRows + rows.length } :=
  congrArg JoinState.stats (eq_of_store accepted).2

/-- A right block does not touch the plan. -/
theorem plan_receiveRight {block : Block} :
    (state.receiveRight block).state.plan = state.plan := by
  cases block with
  | idle => rfl
  | ended => rfl
  | failed cause => rfl
  | data batch =>
      simp only [receiveRight]
      split
      · rfl
      · next outcome => exact (samePosition_store outcome).1

/-- A left block does not touch the plan. -/
theorem plan_receiveLeft {block : Block} :
    (state.receiveLeft block).state.plan = state.plan := by
  obtain ⟨_, _, _, received⟩ := exists_receiveLeft_eq state block
  rw [received]

/-- A left block that fails the join is not counted. -/
theorem stats_probe_of_failed
    {cause : Fault}
    (answered : (state.probe rows).block = .failed cause) :
    (state.probe rows).state.stats = state.stats := by
  unfold probe at answered ⊢
  split
  · rfl
  · simp only at answered ⊢
    split
    · rfl
    · simp_all [emitProbed, Block.ofRows]

/-- A left block that was probed is counted, with its rows and those it paired. -/
theorem stats_probe_of_data (answered : (state.probe rows).block.isData = true) :
    (state.probe rows).state.stats =
      { state.stats with
        leftBlocks := state.stats.leftBlocks + 1
        leftRows := state.stats.leftRows + rows.length
        emittedRows :=
          state.stats.emittedRows + (state.probe rows).block.rows.length } := by
  unfold probe at answered ⊢
  split
  · simp_all [fail, Block.isData]
  · simp only at answered ⊢
    split
    · simp_all [fail, Block.isData]
    · rfl

end JoinState

namespace JoinRecord

/--
A join that drains its right child has accepted what the child answered, and holds
it.
-/
structure Building (record : JoinRecord) : Prop where
  passes : record.state.plan.scanRight [] record.rights = ⟨record.rights, none⟩
  lefts_eq : record.lefts = []
  holds :
    record.state.beginBuild.Holds record.state.plan .building (rowsOf record.rights)
      []

/-- A join that streams its left child has accepted what both children answered. -/
structure Probing (record : JoinRecord) (stored : List Block) : Prop where
  rights_eq : record.rights = stored ++ [.ended]
  passes : record.state.plan.scanRight [] stored = ⟨stored, none⟩
  leftsPass :
    record.state.plan.scanLeft (rowsOf stored) [] record.lefts =
      ⟨record.lefts, none⟩
  holds :
    record.state.Holds record.state.plan .probing (rowsOf stored)
      (rowsOf record.lefts)

/-- The invariant of a join and its history. -/
structure Kept (record : JoinRecord) : Prop where
  truthful : record.Truthful
  building :
    record.state.isActive = true → record.state.phase.isBeforeProbing = true →
      record.Building
  probing :
    record.state.isActive = true → record.state.phase = .probing →
      ∃ stored, record.Probing stored

variable {state : JoinState} {rights lefts answers : List Block} {block : Block}

/-- A join that may not pull any more has kept its ledger. -/
theorem kept_of_inactive
    {record : JoinRecord}
    (truthful : record.Truthful)
    (inactive : record.state.isActive = false) :
    record.Kept where
  truthful := truthful
  building active := by
    rw [inactive] at active
    cases active
  probing active := by
    rw [inactive] at active
    cases active

/-- A right block that a join refuses or fails with adds nothing. -/
theorem Building.fail
    {cause : Fault}
    (building : Building ⟨state, rights, [], answers⟩)
    (truthful : Truthful ⟨state, rights, [], answers⟩)
    (goesOn : block.isEnd = false)
    (fails : state.plan.rightFault? (rowsOf rights) block = some cause) :
    Kept
      ⟨(state.beginBuild.fail cause).state, rights ++ [block], [],
        answers ++ [.failed cause]⟩ := by
  obtain ⟨stats_eq, noData⟩ := truthful_building_iff.mp truthful
  have tally_eq := JoinPlan.tallyOf_rights_append building.passes goesOn
  rw [JoinPlan.scanRight_cons_of_fault goesOn fails] at tally_eq
  refine kept_of_inactive (truthful_building_iff.mpr ⟨?_, ?_⟩) rfl
  · exact stats_eq.trans tally_eq.symm
  · rw [dataOf_append, noData]
    rfl

/-- A right block that a join accepts adds its rows. -/
theorem Building.accept
    {later : JoinState}
    {more : List Block}
    (building : Building ⟨state, rights, [], answers⟩)
    (truthful : Truthful ⟨state, rights, [], answers⟩)
    (goesOn : block.isEnd = false)
    (accepts : state.plan.rightFault? (rowsOf rights) block = none)
    (stats_eq :
      later.stats =
        { state.stats with
          rightBlocks := state.stats.rightBlocks + (dataOf [block]).length
          rightRows := state.stats.rightRows + block.rows.length })
    (holds : later.Holds state.plan .building (rowsOf rights ++ block.rows) [])
    (noMore : dataOf more = []) :
    Kept ⟨later, rights ++ [block], [], answers ++ more⟩ := by
  obtain ⟨before_eq, noData⟩ := truthful_building_iff.mp truthful
  have plan_eq := holds.plan_eq
  have accepted :
      (state.plan.scanRight (rowsOf rights) [block]).passed = [block] := by
    rw [JoinPlan.scanRight_cons_of_noFault goesOn accepts]
    rfl
  have tally_eq := JoinPlan.tallyOf_rights_append building.passes goesOn
  simp only [accepted, rowsOf_singleton] at tally_eq
  constructor
  · apply truthful_building_iff.mpr
    refine ⟨?_, by rw [dataOf_append, noData, noMore]; rfl⟩
    rw [stats_eq, before_eq, plan_eq, tally_eq]
  · intro _ _
    refine ⟨?_, rfl, ?_⟩
    · rw [plan_eq]
      exact scan_append_of_passes building.passes goesOn accepts
    · rw [rowsOf_append, rowsOf_singleton,
        JoinState.beginBuild_of_building holds.phase_eq, plan_eq]
      exact holds
  · intro _ probing
    have building := holds.phase_eq
    rw [building] at probing
    cases probing

/--
The end of the right child adds the keys and turns the join to its left child.
-/
theorem Building.turn
    (building : Building ⟨state, rights, [], answers⟩)
    (truthful : Truthful ⟨state, rights, [], answers⟩) :
    Kept ⟨state.beginBuild.finishBuild, rights ++ [.ended], [], answers ++ []⟩ := by
  obtain ⟨before_eq, noData⟩ := truthful_building_iff.mp truthful
  have holds := building.holds
  have table_eq : state.table = state.plan.tableOf (rowsOf rights) := holds.table_eq
  rw [List.append_nil]
  constructor
  · apply truthful_building_iff.mpr
    refine ⟨?_, noData⟩
    have tally_eq := JoinPlan.tallyOf_rights_ended building.passes
    simp only [JoinState.finishBuild, JoinState.beginBuild] at tally_eq ⊢
    rw [tally_eq, table_eq, JoinPlan.tableOf, Table.keyCount_ofRows, ← before_eq]
  · intro _ beforeProbing
    cases beforeProbing
  · intro _ _
    exact ⟨rights, rfl, building.passes, rfl, JoinState.holds_finishBuild holds⟩

/-- Whatever right block a join receives, its record stays true. -/
theorem Building.receiveRight
    (building : Building ⟨state, rights, lefts, answers⟩)
    (truthful : Truthful ⟨state, rights, lefts, answers⟩)
    (block : Block) :
    Kept
      ⟨(state.beginBuild.receiveRight block).state, rights ++ [block], lefts,
        answers ++ (state.beginBuild.receiveRight block).answer?.toList⟩ := by
  obtain rfl : lefts = [] := building.lefts_eq
  have holds := building.holds
  cases block with
  | failed cause => exact building.fail truthful rfl rfl
  | idle =>
      apply building.accept truthful rfl rfl rfl
      · exact (List.append_nil (rowsOf rights)).symm ▸ holds
      · rfl
  | ended => exact building.turn truthful
  | data batch =>
      cases outcome : state.plan.rightFault? (rowsOf rights) (.data batch) with
      | some fault =>
          have refused := JoinState.store_of_fault holds outcome
          simp only [JoinState.receiveRight, refused]
          exact building.fail truthful rfl outcome
      | none =>
          obtain ⟨stored, storing, storedHolds⟩ :=
            JoinState.store_of_noFault holds outcome
          simp only [JoinState.receiveRight, storing]
          have stats_eq := JoinState.stats_store storing
          exact building.accept truthful rfl outcome stats_eq storedHolds rfl

section Lefts

variable {stored accepted : List Block} {answered : Block} {later : JoinState}

/-- While a join probes, all right blocks that it stored were accepted. -/
theorem Probing.acceptedRights_eq
    (probing : Probing ⟨state, rights, lefts, answers⟩ stored) :
    state.plan.acceptedRights rights = stored := by
  have rights_eq : rights = stored ++ [.ended] := probing.rights_eq
  rw [rights_eq, JoinPlan.acceptedRights_append probing.passes]
  exact List.append_nil stored

/-- While a join probes, all left blocks that it took were accepted. -/
theorem Probing.acceptedLefts_eq
    (probing : Probing ⟨state, rights, lefts, answers⟩ stored) :
    state.plan.acceptedLefts rights lefts = lefts := by
  rw [JoinPlan.acceptedLefts, probing.acceptedRights_eq]
  exact congrArg Scan.passed probing.leftsPass

/-- One more left block is accepted if it passes behind the others. -/
theorem Probing.acceptedLefts_append
    (probing : Probing ⟨state, rights, lefts, answers⟩ stored)
    (block : Block) :
    state.plan.acceptedLefts rights (lefts ++ [block]) =
      lefts ++
        (state.plan.scanLeft (rowsOf stored) (rowsOf lefts) [block]).passed := by
  have appended := scan_append probing.leftsPass [block]
  rw [List.nil_append] at appended
  rw [JoinPlan.acceptedLefts, probing.acceptedRights_eq]
  exact congrArg Scan.passed appended

/-- While a join probes, the left input has not ended. -/
theorem Probing.ended_notMem
    (probing : Probing ⟨state, rights, lefts, answers⟩ stored) :
    .ended ∉ lefts :=
  ended_notMem_of_passes (fun _ _ => rfl) probing.leftsPass

/--
Before the left child has ended, there is one data answer for each accepted left
block.
-/
theorem Probing.length_answers
    (probing : Probing ⟨state, rights, lefts, answers⟩ stored)
    (truthful : Truthful ⟨state, rights, lefts, answers⟩) :
    (dataOf answers).length = (dataOf lefts).length := by
  have length_eq := truthful.length_answers
  simp only [probing.acceptedLefts_eq, probing.ended_notMem, and_false, if_false,
    Nat.add_zero] at length_eq
  exact length_eq

/-- While a join probes, the sweep is still to come. -/
theorem Probing.unmatchedRightRows_eq
    (probing : Probing ⟨state, rights, lefts, answers⟩ stored)
    (truthful : Truthful ⟨state, rights, lefts, answers⟩) :
    state.stats.unmatchedRightRows = 0 := by
  have stats_eq : state.stats = _ := truthful.stats_eq
  have noSweep : (dataOf answers).drop (dataOf lefts).length = [] :=
    List.drop_eq_nil_of_le (Nat.le_of_eq (probing.length_answers truthful))
  simp only [stats_eq, JoinPlan.tallyOf, JoinPlan.sweeps, probing.acceptedLefts_eq,
    noSweep]
  rfl

/-- What one more left block and its answer add to the statistics. -/
theorem Probing.truthful_append
    (probing : Probing ⟨state, rights, lefts, answers⟩ stored)
    (truthful : Truthful ⟨state, rights, lefts, answers⟩)
    (plan_eq : later.plan = state.plan)
    (accepted_eq :
      (state.plan.scanLeft (rowsOf stored) (rowsOf lefts) [block]).passed =
        accepted)
    (stats_eq :
      later.stats =
        { state.stats with
          leftBlocks := state.stats.leftBlocks + (dataOf accepted).length
          leftRows := state.stats.leftRows + (rowsOf accepted).length
          emittedRows := state.stats.emittedRows + answered.rows.length
          unmatchedRightRows :=
            (rowsOf ((dataOf [answered]).drop (dataOf accepted).length)).length })
    (length_eq :
      (dataOf [answered]).length =
        (dataOf accepted).length +
          if state.plan.kind.sweepsRight = true ∧ .ended = block then 1 else 0) :
    Truthful ⟨later, rights, lefts ++ [block], answers ++ [answered]⟩ := by
  have before_eq : state.stats = _ := truthful.stats_eq
  have lengths := probing.length_answers truthful
  constructor
  · -- Up to now there is an answer for each accepted block, so both lists grow past
    -- one point:
    -- what is left over to count as a sweep comes from the new block and its answer
    -- alone.
    have sweeps_eq :
        (dataOf answers ++ dataOf [answered]).drop
            ((dataOf lefts).length + (dataOf accepted).length) =
          (dataOf [answered]).drop (dataOf accepted).length := by
      rw [← lengths, List.drop_append]
      simp
    rw [stats_eq, before_eq, plan_eq]
    simp only [JoinPlan.tallyOf, JoinPlan.sweeps, probing.acceptedLefts_append,
      probing.acceptedLefts_eq, accepted_eq, dataOf_append, rowsOf_append,
      List.length_append, sweeps_eq, rowsOf_singleton]
  · simp only [plan_eq, probing.acceptedLefts_append, accepted_eq, dataOf_append,
      List.length_append, lengths, length_eq, List.mem_append, List.mem_singleton,
      probing.ended_notMem, false_or, Nat.add_assoc]

/-- A left block that a join refuses or fails with adds nothing. -/
theorem Probing.fail
    {cause : Fault}
    (probing : Probing ⟨state, rights, lefts, answers⟩ stored)
    (truthful : Truthful ⟨state, rights, lefts, answers⟩)
    (goesOn : block.isEnd = false)
    (fails : state.plan.leftFault? (rowsOf stored) block = some cause)
    (plan_eq : later.plan = state.plan)
    (stats_eq : later.stats = state.stats)
    (inactive : later.isActive = false) :
    Kept ⟨later, rights, lefts ++ [block], answers ++ [.failed cause]⟩ := by
  have notEnd := Block.ended_ne_of_goesOn goesOn
  have accepted_eq :
      (state.plan.scanLeft (rowsOf stored) (rowsOf lefts) [block]).passed = [] := by
    rw [JoinPlan.scanLeft_cons_of_fault goesOn fails]
  refine
    kept_of_inactive (probing.truthful_append truthful plan_eq accepted_eq ?_ ?_)
      inactive
  · rw [stats_eq]
    exact
      congrArg (fun rows => { state.stats with unmatchedRightRows := rows })
        (probing.unmatchedRightRows_eq truthful)
  · simp only [notEnd, and_false, if_false]
    rfl

/-- A left block that a join accepts adds its rows, and the rows that answer it. -/
theorem Probing.accept
    (probing : Probing ⟨state, rights, lefts, answers⟩ stored)
    (truthful : Truthful ⟨state, rights, lefts, answers⟩)
    (goesOn : block.isEnd = false)
    (accepts : state.plan.leftFault? (rowsOf stored) block = none)
    (sameKind : answered.isData = block.isData)
    (stats_eq :
      later.stats =
        { state.stats with
          leftBlocks := state.stats.leftBlocks + (dataOf [block]).length
          leftRows := state.stats.leftRows + block.rows.length
          emittedRows := state.stats.emittedRows + answered.rows.length })
    (holds :
      later.Holds state.plan .probing (rowsOf stored)
        (rowsOf lefts ++ block.rows)) :
    Kept ⟨later, rights, lefts ++ [block], answers ++ [answered]⟩ := by
  have notEnd := Block.ended_ne_of_goesOn goesOn
  have plan_eq := holds.plan_eq
  have accepted_eq :
      (state.plan.scanLeft (rowsOf stored) (rowsOf lefts) [block]).passed =
        [block] := by
    rw [JoinPlan.scanLeft_cons_of_noFault goesOn accepts]
    rfl
  have sameLength : (dataOf [answered]).length = (dataOf [block]).length := by
    simp only [dataOf, List.filter_cons, sameKind]
    split <;> rfl
  have noSweep : (dataOf [answered]).drop (dataOf [block]).length = [] :=
    List.drop_eq_nil_of_le (Nat.le_of_eq sameLength)
  constructor
  · apply probing.truthful_append truthful plan_eq accepted_eq
    · simp only [stats_eq, noSweep, rowsOf_singleton,
        probing.unmatchedRightRows_eq truthful]
      rfl
    · simp only [sameLength, notEnd, and_false, if_false, Nat.add_zero]
  · intro _ beforeProbing
    have probing := holds.phase_eq
    rw [probing] at beforeProbing
    cases beforeProbing
  · intro _ _
    refine ⟨stored, probing.rights_eq, ?_, ?_, ?_⟩
    · exact plan_eq ▸ probing.passes
    · rw [plan_eq]
      exact scan_append_of_passes probing.leftsPass goesOn accepts
    · rw [rowsOf_append, rowsOf_singleton, plan_eq]
      exact holds

/-- The end of the left child adds the rows of the sweep, if there is one. -/
theorem Probing.finish
    (probing : Probing ⟨state, rights, lefts, answers⟩ stored)
    (truthful : Truthful ⟨state, rights, lefts, answers⟩) :
    Kept
      ⟨state.finishProbe.state, rights, lefts ++ [.ended],
        answers ++ [state.finishProbe.block]⟩ := by
  have accepted_eq :
      (state.plan.scanLeft (rowsOf stored) (rowsOf lefts) [.ended]).passed =
        [] := rfl
  cases sweeps : state.kind.sweepsRight with
  | false =>
      have finished :
          state.finishProbe = ⟨.ended, { state with phase := .done }, []⟩ := by
        simp only [JoinState.finishProbe, sweeps, Bool.false_eq_true, if_false]
      rw [finished]
      refine
        kept_of_inactive (probing.truthful_append truthful rfl accepted_eq ?_ ?_)
          rfl
      · exact
          congrArg (fun rows => { state.stats with unmatchedRightRows := rows })
            (probing.unmatchedRightRows_eq truthful)
      · have noSweep : state.plan.kind.sweepsRight = false := sweeps
        simp only [noSweep, Bool.false_eq_true, false_and, if_false]
        rfl
  | true =>
      have finished :
          state.finishProbe =
            JoinState.sweep { state with phase := .sweeping } := by
        simp only [JoinState.finishProbe, sweeps, if_true]
      rw [finished]
      refine
        kept_of_inactive (probing.truthful_append truthful rfl accepted_eq ?_ ?_)
          rfl
      · simp only [JoinState.sweep, Block.ofRows, Block.rows, dataOf,
          List.filter_cons, Block.isData, if_true, List.filter_nil, List.drop_zero,
          List.length_nil, rowsOf_singleton]
        rfl
      · have hasSweep : state.plan.kind.sweepsRight = true := sweeps
        simp only [hasSweep, true_and, if_true]
        rfl

/-- Whatever left block a join receives, its record stays true. -/
theorem Probing.receiveLeft
    (probing : Probing ⟨state, rights, lefts, answers⟩ stored)
    (truthful : Truthful ⟨state, rights, lefts, answers⟩)
    (block : Block) :
    Kept
      ⟨(state.receiveLeft block).state, rights, lefts ++ [block],
        answers ++ [(state.receiveLeft block).block]⟩ := by
  have holds := probing.holds
  cases block with
  | failed cause => exact probing.fail truthful rfl rfl rfl rfl rfl
  | idle =>
      apply probing.accept truthful rfl rfl rfl rfl
      exact (List.append_nil (rowsOf lefts)).symm ▸ holds
  | ended => exact probing.finish truthful
  | data batch =>
      cases outcome : state.plan.leftFault? (rowsOf stored) (.data batch) with
      | some fault =>
          obtain ⟨answered, failed⟩ := JoinState.probe_of_fault holds outcome
          have samePlan :
              (state.receiveLeft (.data batch)).state.plan = state.plan :=
            JoinState.plan_receiveLeft
          simp only [JoinState.receiveLeft, answered] at samePlan ⊢
          apply probing.fail truthful rfl outcome samePlan
          · exact JoinState.stats_probe_of_failed answered
          · simp only [JoinState.isActive, failed]
      | none =>
          obtain ⟨answered, probedHolds⟩ := JoinState.probe_of_noFault holds outcome
          have isData : (state.probe batch.rows).block.isData = true := by
            rw [answered]; rfl
          exact
            probing.accept truthful rfl outcome isData
              (JoinState.stats_probe_of_data isData) probedHolds

end Lefts

/-- Nor does the last block of a join that may not pull. -/
theorem Kept.append_lastBlock
    (kept : Kept ⟨state, rights, lefts, answers⟩)
    (inactive : state.isActive = false) :
    Kept ⟨state, rights, lefts, answers ++ [state.lastBlock]⟩ := by
  have terminal : state.lastBlock.isTerminal = true := by
    unfold JoinState.lastBlock
    split <;> rfl
  exact kept_of_inactive (kept.truthful.append_terminal terminal) inactive

/-- Closing keeps the statistics. -/
theorem Kept.release (kept : Kept ⟨state, rights, lefts, answers⟩) :
    Kept ⟨state.release, rights, lefts, answers⟩ :=
  kept_of_inactive ⟨kept.truthful.stats_eq, kept.truthful.length_answers⟩
    (JoinState.isActive_of_closed rfl)

/-- A join that was never pulled has kept its ledger. -/
theorem kept_ofPlan (plan : JoinPlan) : Kept ⟨.ofPlan plan, [], [], []⟩ := by
  have truthful : Truthful ⟨.ofPlan plan, [], [], []⟩ :=
    truthful_building_iff.mpr ⟨rfl, rfl⟩
  refine ⟨truthful, fun _ _ => ?_, nofun⟩
  exact ⟨rfl, rfl, JoinState.holds_ofPlan plan⟩

end JoinRecord

end StreamJoin
