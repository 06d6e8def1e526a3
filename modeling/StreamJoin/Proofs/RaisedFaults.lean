import StreamJoin.Proofs.JoinLedger

namespace StreamJoin

/-!
# The failures that a join raises itself

A join fails for one of two reasons.  A child failed, and the join passes the
failure on; or the data that it received break the row limit, the widths or a
residual predicate, and the join raises a failure of its own.  What a join raises is
read off the data that its children handed out, and the two reasons never meet:
behind each block that a join receives it remembers the failure of that block, or
the one that it raises, and there is at most one of them.
-/

section Scanning

variable {faultOf : List Row → Block → Option Fault} {before : List Row}
variable {blocks : List Block} {block : Block}

/-- If a script passes, so do its data without the other blocks. -/
theorem scan_dataOf
    (failing : ∀ rows cause, faultOf rows (.failed cause) = some cause)
    (passes : scan faultOf before blocks = ⟨blocks, none⟩) :
    scan faultOf before (dataOf blocks) = ⟨dataOf blocks, none⟩ := by
  induction blocks generalizing before with
  | nil => rfl
  | cons block rest inductionHypothesis =>
      obtain ⟨goesOn, noFault, laterPasses⟩ := passes_of_cons passes
      have dataPasses := inductionHypothesis laterPasses
      cases block with
      | ended => cases goesOn
      | failed cause => cases (failing before cause).symm.trans noFault
      | idle => exact (List.append_nil before) ▸ dataPasses
      | data batch =>
          have dataFirst :
              dataOf (.data batch :: rest) = .data batch :: dataOf rest := rfl
          rw [dataFirst, scan_cons_of_noFault rfl noFault, dataPasses]

/-- A scan that fails has found a block that does. -/
theorem exists_fault_of_scan
    {cause : Fault}
    (found : (scan faultOf before blocks).fault? = some cause) :
    ∃ rows, ∃ block ∈ blocks, faultOf rows block = some cause := by
  induction blocks generalizing before with
  | nil => cases found
  | cons block rest inductionHypothesis =>
      cases isEnd : block.isEnd with
      | true =>
          cases block <;> simp [scan, Block.isEnd] at found isEnd
      | false =>
          cases outcome : faultOf before block with
          | some fault =>
              rw [scan_cons_of_fault isEnd outcome] at found
              exact ⟨before, block, List.mem_cons_self, outcome.trans found⟩
          | none =>
              rw [scan_cons_of_noFault isEnd outcome] at found
              obtain ⟨rows, later, member, fails⟩ := inductionHypothesis found
              exact ⟨rows, later, List.mem_cons_of_mem block member, fails⟩

/-- One more block behind blocks that pass fails as it does behind their rows. -/
theorem fault?_scan_append_data
    {batch : Batch}
    (passes : scan faultOf before blocks = ⟨blocks, none⟩) :
    (scan faultOf before (blocks ++ [.data batch])).fault? =
      faultOf (before ++ rowsOf blocks) (.data batch) := by
  rw [scan_append passes]
  cases outcome : faultOf (before ++ rowsOf blocks) (.data batch) with
  | some fault => rw [scan_cons_of_fault rfl outcome]
  | none =>
      rw [scan_cons_of_noFault rfl outcome]
      rfl

end Scanning

namespace JoinPlan

/--
The failure of the data that the children of a join handed out: of the right data
first, and of the left data against them.
-/
def raised? (plan : JoinPlan) (rights lefts : List Block) : Option Fault :=
  let right := plan.scanRight [] (dataOf rights)
  right.fault?.or (plan.scanLeft (rowsOf right.passed) [] (dataOf lefts)).fault?

variable {plan : JoinPlan} {rights lefts stored : List Block} {block : Block}

/-- Blocks without data raise nothing. -/
theorem raised?_of_noData
    (noData : block.isData = false) :
    plan.raised? (rights ++ [block]) lefts = plan.raised? rights lefts ∧
      plan.raised? rights (lefts ++ [block]) = plan.raised? rights lefts := by
  have nothing : dataOf [block] = [] := by
    rw [dataOf, List.filter_singleton, noData]; rfl
  simp only [raised?, dataOf_append, nothing, List.append_nil, and_self]

/--
The next right block of data raises what it breaks behind the right rows before it.
-/
theorem raised?_append_right
    (passes : plan.scanRight [] rights = ⟨rights, none⟩)
    (batch : Batch) :
    plan.raised? (rights ++ [.data batch]) [] =
      plan.rightFault? (rowsOf rights) (.data batch) := by
  have found :
      (plan.scanRight [] (dataOf rights ++ [.data batch])).fault? =
        plan.rightFault? ([] ++ rowsOf (dataOf rights)) (.data batch) :=
    fault?_scan_append_data (scan_dataOf (fun _ _ => rfl) passes)
  have noLefts (before : List Row) :
      (plan.scanLeft before [] (dataOf [])).fault? = none := rfl
  have isData : dataOf [.data batch] = [.data batch] := rfl
  simp only [raised?, dataOf_append, isData, noLefts, Option.or_none, found,
    rowsOf_dataOf, List.nil_append]

/-- The next left block of data raises what it breaks against all right rows. -/
theorem raised?_append_left
    (passes : plan.scanRight [] stored = ⟨stored, none⟩)
    (leftsPass : plan.scanLeft (rowsOf stored) [] lefts = ⟨lefts, none⟩)
    (batch : Batch) :
    plan.raised? stored (lefts ++ [.data batch]) =
      plan.leftFault? (rowsOf stored) (.data batch) := by
  have rightPasses : plan.scanRight [] (dataOf stored) = ⟨dataOf stored, none⟩ :=
    scan_dataOf (fun _ _ => rfl) passes
  have found :
      (plan.scanLeft (rowsOf stored) [] (dataOf lefts ++ [.data batch])).fault? =
        plan.leftFault? (rowsOf stored) (.data batch) :=
    fault?_scan_append_data (scan_dataOf (fun _ _ => rfl) leftsPass)
  have isData : dataOf [.data batch] = [.data batch] := rfl
  simp only [raised?, dataOf_append, isData, rightPasses, rowsOf_dataOf, found,
    Option.none_or]

/-- A join that stores what it receives raises nothing. -/
theorem raised?_of_passes
    (passes : plan.scanRight [] stored = ⟨stored, none⟩)
    (leftsPass : plan.scanLeft (rowsOf stored) [] lefts = ⟨lefts, none⟩) :
    plan.raised? stored lefts = none := by
  have rightPasses : plan.scanRight [] (dataOf stored) = ⟨dataOf stored, none⟩ :=
    scan_dataOf (fun _ _ => rfl) passes
  have leftPasses :
      plan.scanLeft (rowsOf stored) [] (dataOf lefts) = ⟨dataOf lefts, none⟩ :=
    scan_dataOf (fun _ _ => rfl) leftsPass
  simp only [raised?, rightPasses, rowsOf_dataOf, leftPasses, Option.none_or]

end JoinPlan

namespace JoinRecord

variable {state : JoinState} {rights lefts answers stored : List Block}

/-- While a join builds, nothing that it received has failed. -/
theorem Building.raised?_eq_none
    (building : Building ⟨state, rights, lefts, answers⟩) :
    state.plan.raised? rights lefts = none := by
  obtain rfl : lefts = [] := building.lefts_eq
  exact JoinPlan.raised?_of_passes building.passes rfl

/-- While a join probes, nothing that it received has failed. -/
theorem Probing.raised?_eq
    (probing : Probing ⟨state, rights, lefts, answers⟩ stored) :
    state.plan.raised? rights lefts = none := by
  obtain rfl : rights = stored ++ [.ended] := probing.rights_eq
  rw [(JoinPlan.raised?_of_noData rfl).1]
  exact JoinPlan.raised?_of_passes probing.passes probing.leftsPass

/--
Behind a right block the join remembers the failure of the block or the one that it
raises, and there is at most one of them.
-/
theorem Building.cause?_receiveRight
    (building : Building ⟨state, rights, lefts, answers⟩)
    (block : Block) :
    (state.beginBuild.receiveRight block).state.phase.cause? =
        block.cause?.or (state.plan.raised? (rights ++ [block]) lefts) ∧
      (block.cause?.isSome = true →
        state.plan.raised? (rights ++ [block]) lefts = none) := by
  have holds := building.holds
  have noneBefore := building.raised?_eq_none
  obtain rfl : lefts = [] := building.lefts_eq
  cases block with
  | idle =>
      rw [(JoinPlan.raised?_of_noData rfl).1, noneBefore]
      exact ⟨rfl, fun _ => rfl⟩
  | ended =>
      rw [(JoinPlan.raised?_of_noData rfl).1, noneBefore]
      exact ⟨rfl, fun _ => rfl⟩
  | failed cause =>
      rw [(JoinPlan.raised?_of_noData rfl).1, noneBefore]
      exact ⟨rfl, fun _ => rfl⟩
  | data batch =>
      refine ⟨?_, nofun⟩
      have passes : state.plan.scanRight [] rights = ⟨rights, none⟩ :=
        building.passes
      rw [JoinPlan.raised?_append_right passes]
      cases outcome : state.plan.rightFault? (rowsOf rights) (.data batch) with
      | some fault =>
          simp only [JoinState.receiveRight, JoinState.store_of_fault holds outcome]
          rfl
      | none =>
          obtain ⟨stored, storing, storedHolds⟩ :=
            JoinState.store_of_noFault holds outcome
          simp only [JoinState.receiveRight, storing, storedHolds.phase_eq]
          rfl

/-- Behind a left block the same holds. -/
theorem Probing.cause?_receiveLeft
    (probing : Probing ⟨state, rights, lefts, answers⟩ stored)
    (block : Block) :
    (state.receiveLeft block).state.phase.cause? =
        block.cause?.or (state.plan.raised? rights (lefts ++ [block])) ∧
      (block.cause?.isSome = true →
        state.plan.raised? rights (lefts ++ [block]) = none) := by
  have holds := probing.holds
  have noneBefore := probing.raised?_eq
  have phase_eq : state.phase = .probing := holds.phase_eq
  cases block with
  | idle =>
      rw [(JoinPlan.raised?_of_noData rfl).2, noneBefore]
      exact ⟨congrArg Phase.cause? phase_eq, fun _ => rfl⟩
  | ended =>
      rw [(JoinPlan.raised?_of_noData rfl).2, noneBefore]
      refine ⟨?_, fun _ => rfl⟩
      simp only [JoinState.receiveLeft, JoinState.finishProbe]
      split <;> rfl
  | failed cause =>
      rw [(JoinPlan.raised?_of_noData rfl).2, noneBefore]
      exact ⟨rfl, fun _ => rfl⟩
  | data batch =>
      refine ⟨?_, fun passedOn => by cases passedOn⟩
      obtain rfl : rights = stored ++ [.ended] := probing.rights_eq
      rw [(JoinPlan.raised?_of_noData rfl).1,
        JoinPlan.raised?_append_left probing.passes probing.leftsPass]
      cases outcome : state.plan.leftFault? (rowsOf stored) (.data batch) with
      | some fault =>
          obtain ⟨_, failed⟩ := JoinState.probe_of_fault holds outcome
          exact congrArg Phase.cause? failed
      | none =>
          obtain ⟨_, probedHolds⟩ := JoinState.probe_of_noFault holds outcome
          exact congrArg Phase.cause? probedHolds.phase_eq

end JoinRecord

namespace JoinPlan

variable {plan : JoinPlan} {cause : Fault}

/--
What the residual predicates of a plan fail with, if they fail at all, is allowed.
-/
def EvaluatesWithin (plan : JoinPlan) (allowed : Fault → Prop) : Prop :=
  ∀ candidate cause, plan.residualFault? candidate = some cause → allowed cause

/-- A failure among pairs is that of a predicate on one of them. -/
theorem exists_residual_of_pairFault
    {rights lefts : List Row}
    (found : plan.pairFault? rights lefts = some cause) :
    ∃ candidate, plan.residualFault? candidate = some cause := by
  obtain ⟨left, _, fails⟩ := List.exists_of_findSome?_eq_some found
  unfold rowFault? at fails
  split at fails
  · cases fails
  · cases fails
  · obtain ⟨right, _, evaluated⟩ := List.exists_of_findSome?_eq_some fails
    exact ⟨_, evaluated⟩

/--
What the predicates fail with is what one of them fails with, or that its value has
no truth.
-/
theorem residualFault?_cases
    {candidate : Row}
    (found : plan.residualFault? candidate = some cause) :
    (∃ predicate ∈ plan.residuals.predicates, predicate candidate = .error cause) ∨
      ∃ reason, cause = .predicateFailed reason := by
  have failing : plan.residuals.accepts candidate = .error cause := by
    unfold residualFault? at found
    split at found
    · cases found
    · next fails => cases found; exact fails
  unfold Residuals.accepts at failing
  generalize plan.residuals.predicates = predicates at failing ⊢
  induction predicates with
  | nil => cases failing
  | cons predicate rest inductionHypothesis =>
      simp only [Residuals.allHold] at failing
      split at failing
      · next fails =>
          cases failing
          exact .inl ⟨predicate, List.mem_cons_self, fails⟩
      · next value _ =>
          split at failing
          · next refused =>
              cases failing
              cases value <;> simp [Value.truth] at refused
              all_goals exact .inr ⟨_, refused.symm⟩
          · cases failing
          · rcases inductionHypothesis failing with ⟨later, member, fails⟩ | reason
            · exact .inl ⟨later, List.mem_cons_of_mem predicate member, fails⟩
            · exact .inr reason

/--
Predicates that fail with no failure of a plan do not make the join raise one.
-/
theorem evaluatesWithin_of_predicates
    (predicates :
      ∀ predicate ∈ plan.residuals.predicates, ∀ candidate cause,
        predicate candidate = .error cause → cause.isPlanFault = false) :
    plan.EvaluatesWithin fun cause => cause.isPlanFault = false := by
  intro candidate cause found
  rcases residualFault?_cases found with
    ⟨predicate, listed, failing⟩ | ⟨reason, rfl⟩
  · exact predicates predicate listed candidate cause failing
  · rfl

/--
A join raises a failure of the row limit, of the widths or of a residual predicate.
-/
theorem raised?_cases
    {rights lefts : List Block}
    (raised : plan.raised? rights lefts = some cause) :
    (∃ limit, cause = .rowLimitExceeded limit) ∨
      (∃ side expected actual, cause = .wrongRowWidth side expected actual) ∨
      ∃ candidate, plan.residualFault? candidate = some cause := by
  have ofWidth {side : Side} {expected : Nat} {rows : List Row}
      (wrong : widthFault? side expected rows = some cause) :
      ∃ side expected actual, cause = .wrongRowWidth side expected actual := by
    obtain ⟨actual, _, rfl⟩ := Option.map_eq_some_iff.mp wrong
    exact ⟨_, _, _, rfl⟩
  have onlyData {blocks : List Block} {block : Block}
      (member : block ∈ dataOf blocks) :
      ∃ batch, block = .data batch := by
    cases block with
    | data batch => exact ⟨batch, rfl⟩
    | _ => cases (List.mem_filter.mp member).2
  rcases Option.or_eq_some_iff.mp raised with inRight | ⟨_, inLeft⟩
  · obtain ⟨rows, block, member, fails⟩ := exists_fault_of_scan inRight
    obtain ⟨batch, rfl⟩ := onlyData member
    rcases Option.or_eq_some_iff.mp fails with overLimit | ⟨_, wrong⟩
    · unfold limitFault? at overLimit
      split at overLimit
      · split at overLimit
        · cases overLimit
          exact .inl ⟨_, rfl⟩
        · cases overLimit
      · cases overLimit
    · exact .inr (.inl (ofWidth wrong))
  · obtain ⟨rows, block, member, fails⟩ := exists_fault_of_scan inLeft
    obtain ⟨batch, rfl⟩ := onlyData member
    rcases Option.or_eq_some_iff.mp fails with wrong | ⟨_, evaluated⟩
    · exact .inr (.inl (ofWidth wrong))
    · exact .inr (.inr (exists_residual_of_pairFault evaluated))

end JoinPlan

end StreamJoin
