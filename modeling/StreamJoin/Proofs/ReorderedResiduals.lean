import StreamJoin.Proofs.JoinLifecycle
import StreamJoin.Proofs.LimitedStreams
import StreamJoin.Proofs.PlanChecks
import StreamJoin.Proofs.RecordedRuns
import StreamJoin.Proofs.ResidualConjunction
import StreamJoin.Proofs.WholeRun

namespace StreamJoin

/-!
# Residual predicates in another order

Two joins that differ in the order of their residual predicates may differ in the
failure that they meet first, and so one of them may fail where the other goes on.
If both come to their ends, they have evaluated the same candidates and let the same
of them survive, so they answer the same blocks up to the sweep and the same rows in
the sweep.

A join that has ended tells of its children that both have ended, behind blocks that
it accepted.  These are scripts of both joins, and a scan of a script that finds no
failure passes all of it, whatever it looks for.
-/

/-- An operator follows its first answers, if a terminal one is among them. -/
theorem Operator.follows_firstAnswers
    {State : Type}
    [Operator State]
    {state : State}
    {count : Nat}
    (ended : HasEnded count state) :
    Follows state (firstAnswers count state) := by
  induction count generalizing state with
  | zero =>
      obtain ⟨_, member, _⟩ := ended
      cases member
  | succ count inductionHypothesis =>
      refine ⟨rfl, fun goesOn => inductionHypothesis ?_⟩
      obtain ⟨block, member, terminal⟩ := ended
      rcases List.mem_cons.mp member with rfl | later
      · cases goesOn.symm.trans terminal
      · exact ⟨block, later, terminal⟩

/-- Pulling is a request, and the only one that pulls consist of. -/
theorem Operator.afterCalls_replicate_pull
    {State : Type}
    [Operator State]
    (state : State)
    (count : Nat) :
    afterCalls state (List.replicate count .pull) = afterPulls count state := by
  induction count generalizing state with
  | zero => rfl
  | succ count inductionHypothesis => exact inductionHypothesis (pull state).next

namespace JoinRecord

/--
An open join that may not pull and did not fail has received the ends of both
children, and the scans of what they answered find no failure.
-/
def Completes (record : JoinRecord) : Prop :=
  record.state.isActive = false → record.state.closed = false →
    record.state.phase.cause? = none →
      .ended ∈ record.rights ∧ .ended ∈ record.lefts ∧
        record.state.plan.firstFault? record.rights record.lefts = none

/-- The end of the left child completes a join that accepted all before it. -/
theorem Probing.completes
    {state : JoinState}
    {rights lefts answers stored : List Block}
    (probing : Probing ⟨state, rights, lefts, answers⟩ stored) :
    .ended ∈ rights ∧ .ended ∈ lefts ++ [.ended] ∧
      state.plan.firstFault? rights (lefts ++ [.ended]) = none := by
  have rights_eq : rights = stored ++ [.ended] := probing.rights_eq
  have rightScan : state.plan.scanRight [] rights = ⟨stored, none⟩ := by
    rw [rights_eq]
    exact
      (scan_append probing.passes [.ended]).trans (by rw [scan, List.append_nil])
  have leftScan :
      state.plan.scanLeft (rowsOf stored) [] (lefts ++ [.ended]) = ⟨lefts, none⟩ :=
    (scan_append probing.leftsPass [.ended]).trans (by rw [scan, List.append_nil])
  refine ⟨by simp [rights_eq], by simp, ?_⟩
  simp only [JoinPlan.firstFault?, rightScan, leftScan, Option.or_none]

/-- In every run a join that ended without a failure has received both ends. -/
theorem maintained_completes :
    Maintained fun record => record.Kept ∧ record.Completes where
  receivesRight := by
    intro state rights lefts answers block opened beforeProbing keeps
    refine ⟨maintained_kept.receivesRight block opened beforeProbing keeps.1, ?_⟩
    intro inactive stillOpened noFailure
    have building : state.beginBuild.phase = .building := rfl
    rcases JoinState.receiveRight_cases building with
        ⟨stays | turns, _⟩ | ⟨cause, failed, _⟩
    · have active :=
        JoinState.isActive_of_beforeProbing (by rw [stays]; rfl) stillOpened
      cases active.symm.trans inactive
    · cases (JoinState.isActive_of_probing stillOpened turns).symm.trans inactive
    · cases (Phase.cause?_eq_some_iff.mpr failed).symm.trans noFailure
  receivesLeft := by
    intro state rights lefts answers block opened probing keeps
    refine ⟨maintained_kept.receivesLeft block opened probing keeps.1, ?_⟩
    intro inactive stillOpened noFailure
    obtain ⟨stored, streaming⟩ :=
      keeps.1.probing (JoinState.isActive_of_probing opened probing) probing
    cases block with
    | idle =>
        cases (JoinState.isActive_of_probing opened probing).symm.trans inactive
    | failed cause => cases noFailure
    | ended =>
        have plan_eq : (state.receiveLeft .ended).state.plan = state.plan :=
          JoinState.plan_receiveLeft
        simp only [plan_eq]
        exact streaming.completes
    | data batch =>
        cases outcome : state.plan.leftFault? (rowsOf stored) (.data batch) with
        | some fault =>
            obtain ⟨_, failed⟩ := JoinState.probe_of_fault streaming.holds outcome
            cases (Phase.cause?_eq_some_iff.mpr failed).symm.trans noFailure
        | none =>
            obtain ⟨_, probedHolds⟩ :=
              JoinState.probe_of_noFault streaming.holds outcome
            have active :=
              JoinState.isActive_of_probing stillOpened probedHolds.phase_eq
            cases active.symm.trans inactive
  repeatsLast inactive keeps :=
    ⟨maintained_kept.repeatsLast inactive keeps.1, keeps.2⟩
  released keeps := ⟨maintained_kept.released keeps.1, nofun⟩

end JoinRecord

namespace BroadcastJoin

variable {Left Right : Type} [Operator Left] [Drainable Right]

/-- Pulls of a join pull its children and do nothing else to them. -/
theorem pulledFrom_afterPulls
    {left : Left}
    {right : Right}
    {join : BroadcastJoin (Noted Left) (Noted Right)}
    (leftPulled : join.left.PulledFrom left)
    (rightPulled : join.right.PulledFrom right)
    (count : Nat) :
    (Operator.afterPulls count join).left.PulledFrom left ∧
      (Operator.afterPulls count join).right.PulledFrom right := by
  induction count generalizing join with
  | zero => exact ⟨leftPulled, rightPulled⟩
  | succ count inductionHypothesis =>
      obtain ⟨leftLater, rightLater⟩ :=
        @children_pull _ _ _ _ join (·.PulledFrom left) (·.PulledFrom right)
          (fun _ => Noted.pulledFrom_pull) (fun _ => Noted.pulledFrom_pull)
          leftPulled rightPulled
      exact inductionHypothesis leftLater rightLater

/-- Pulls do not close a join. -/
theorem closed_afterPulls (join : BroadcastJoin Left Right) (count : Nat) :
    (Operator.afterPulls count join).state.closed = join.state.closed := by
  induction count generalizing join with
  | zero => rfl
  | succ count inductionHypothesis =>
      exact (inductionHypothesis join.pull.next).trans (closed_pull join)

variable {left : Left} {right : Right} {spec : JoinSpec} {options : JoinOptions}
variable {order : BucketOrder} {join : BroadcastJoin Left Right}

/-- Behind pulls only, a join has received the first answers of both children. -/
theorem exists_answers_received
    (accepted : ofSpec left right spec options order = .ok join)
    (count : Nat) :
    let record := join.recordAfter (List.replicate count .pull)
    ∃ leftCount rightCount,
      record.lefts = Operator.firstAnswers leftCount left ∧
        record.rights = Operator.firstAnswers rightCount right := by
  obtain ⟨plan, _, rfl⟩ := exists_plan_of_ofSpec accepted
  have leftPulled : (⟨left, []⟩ : Noted Left).PulledFrom left := ⟨0, rfl⟩
  have rightPulled : (⟨right, []⟩ : Noted Right).PulledFrom right := ⟨0, rfl⟩
  obtain ⟨⟨leftCount, leftNoted⟩, rightCount, rightNoted⟩ :=
    @pulledFrom_afterPulls _ _ _ _ left right
      ⟨.ofPlan plan, ⟨left, []⟩, ⟨right, []⟩⟩ leftPulled rightPulled count
  refine ⟨leftCount, rightCount, ?_, ?_⟩
  · rw [recordAfter, record, Operator.afterCalls_replicate_pull]
    exact congrArg Noted.answered leftNoted
  · rw [recordAfter, record, Operator.afterCalls_replicate_pull]
    exact congrArg Noted.answered rightNoted

/--
Behind a pull that answers the end, an open join may not pull and did not fail.
-/
theorem settled_of_ended
    {count : Nat}
    (accepted : ofSpec left right spec options order = .ok join)
    (ended : Operator.answer join count = .ended) :
    let state := (Operator.afterPulls (count + 1) join).state
    state.isActive = false ∧ state.closed = false ∧ state.phase.cause? = none := by
  have settles := settles_pull (Operator.afterPulls count join)
  have terminal : (Operator.afterPulls count join).pull.block.isTerminal = true :=
    congrArg Block.isTerminal ended
  refine ⟨?_, ?_, ?_⟩
  · rw [Operator.afterPulls_succ]
    exact (settles.of_terminal terminal).1
  · rw [closed_afterPulls, eq_ofPlan accepted]
    rfl
  · rw [Operator.afterPulls_succ]
    exact settles.cause_eq.trans (congrArg Block.cause? ended)

/--
A join that answers the end has children that follow scripts without a failure.
-/
theorem exists_scripts_of_ended
    {count : Nat}
    (accepted : ofSpec left right spec options order = .ok join)
    (ended : Operator.answer join count = .ended) :
    ∃ leftScript rightScript,
      Operator.Follows left leftScript ∧ Operator.Follows right rightScript ∧
        join.state.plan.firstFault? rightScript leftScript = none := by
  let calls : List Call := List.replicate (count + 1) .pull
  have state_eq :
      (join.recordAfter calls).state =
        (Operator.afterPulls (count + 1) join).state := by
    rw [state_recordAfter, Operator.afterCalls_replicate_pull]
  have plan_eq : (join.recordAfter calls).state.plan = join.state.plan := by
    rw [state_recordAfter, plan_afterCalls]
  obtain ⟨inactive, opened, noFailure⟩ := settled_of_ended accepted ended
  rw [← state_eq] at inactive opened noFailure
  obtain ⟨rightEnds, leftEnds, noFault⟩ :=
    (maintained_recordAfter JoinRecord.maintained_completes accepted
      ⟨JoinRecord.kept_ofPlan _, nofun⟩ calls).2 inactive opened noFailure
  obtain ⟨leftCount, rightCount, lefts_eq, rights_eq⟩ :=
    exists_answers_received accepted (count + 1)
  rw [lefts_eq] at leftEnds
  rw [rights_eq] at rightEnds
  rw [plan_eq, lefts_eq, rights_eq] at noFault
  exact
    ⟨_, _, Operator.follows_firstAnswers ⟨.ended, leftEnds, rfl⟩,
      Operator.follows_firstAnswers ⟨.ended, rightEnds, rfl⟩, noFault⟩

end BroadcastJoin

/-- A scan that finds no failure passes all blocks before the end. -/
theorem passed_of_noFault
    {faultOf : List Row → Block → Option Fault}
    {before : List Row}
    {script : List Block}
    (sound : (scan faultOf before script).fault? = none) :
    (scan faultOf before script).passed =
      script.takeWhile fun block => !block.isEnd := by
  induction script generalizing before with
  | nil => rfl
  | cons block rest inductionHypothesis =>
      cases isEnd : block.isEnd with
      | true =>
          cases block with
          | ended => rfl
          | _ => cases isEnd
      | false =>
          cases outcome : faultOf before block with
          | some fault =>
              rw [scan_cons_of_fault isEnd outcome] at sound
              cases sound
          | none =>
              rw [scan_cons_of_noFault isEnd outcome] at sound ⊢
              simp only [List.takeWhile_cons, isEnd, Bool.not_false, if_true,
                inductionHypothesis sound]

namespace JoinPlan

/--
A plan that is another one up to the order of the residual predicates, their
repetitions, and the order of the sweep.
-/
structure Reorders (other plan : JoinPlan) : Prop where
  kind_eq : other.kind = plan.kind
  leftKeys_eq : other.leftKeys = plan.leftKeys
  rightKeys_eq : other.rightKeys = plan.rightKeys
  resultSchema_eq : other.resultSchema = plan.resultSchema
  leftWidth_eq : other.leftWidth = plan.leftWidth
  rightWidth_eq : other.rightWidth = plan.rightWidth
  options_eq : other.options = plan.options
  sameResiduals : plan.residuals.SamePredicates other.residuals

/-- Descriptions with the same predicates make plans that reorder each other. -/
theorem reorders_of_describes
    {plan other : JoinPlan}
    {spec : JoinSpec}
    {residuals : Residuals}
    {options : JoinOptions}
    {order otherOrder : BucketOrder}
    (same : spec.residuals.SamePredicates residuals)
    (describes : plan.Describes spec options order)
    (otherDescribes :
      other.Describes { spec with residuals := residuals } options otherOrder) :
    other.Reorders plan where
  kind_eq := Except.ok.inj (otherDescribes.kind_eq.symm.trans describes.kind_eq)
  leftKeys_eq :=
    Option.some.inj (otherDescribes.leftKeys_eq.symm.trans describes.leftKeys_eq)
  rightKeys_eq :=
    Option.some.inj (otherDescribes.rightKeys_eq.symm.trans describes.rightKeys_eq)
  resultSchema_eq :=
    otherDescribes.resultSchema_eq.symm.trans describes.resultSchema_eq
  leftWidth_eq := otherDescribes.leftWidth_eq.symm.trans describes.leftWidth_eq
  rightWidth_eq := otherDescribes.rightWidth_eq.symm.trans describes.rightWidth_eq
  options_eq := otherDescribes.options_eq.symm.trans describes.options_eq
  sameResiduals := describes.residuals_eq ▸ otherDescribes.residuals_eq ▸ same

namespace Reorders

variable {plan other : JoinPlan} (reorders : other.Reorders plan)
include reorders

/-- The same candidates survive. -/
theorem survives_eq : other.survives = plan.survives := by
  funext candidate
  have survives_iff (plan : JoinPlan) :
      plan.survives candidate = true ↔
        plan.residuals.accepts candidate = .ok true := by
    unfold survives
    cases plan.residuals.accepts candidate <;> simp
  rw [Bool.eq_iff_iff, survives_iff, survives_iff]
  exact Residuals.accepts_true_of_samePredicates reorders.sameResiduals candidate

/-- The keys are compared alike. -/
theorem sameKey_eq : other.sameKey = plan.sameKey := by
  funext left right
  simp only [sameKey, reorders.leftKeys_eq, reorders.rightKeys_eq]

/-- The same rows pair. -/
theorem pairs_eq : other.pairs = plan.pairs := by
  funext left right
  simp only [pairs, reorders.sameKey_eq, reorders.survives_eq]

/-- Left rows are padded alike. -/
theorem padRight_eq : other.padRight = plan.padRight := by
  funext left
  simp only [padRight, reorders.rightWidth_eq]

/-- A left row is answered alike. -/
theorem nestedRow_eq : other.nestedRow = plan.nestedRow := by
  funext rights left
  unfold nestedRow pairsOf
  rw [reorders.kind_eq, reorders.pairs_eq, reorders.sameKey_eq,
    reorders.padRight_eq]

/-- A left block is answered alike. -/
theorem probed_eq (rights : List Row) :
    other.probed rights = plan.probed rights := by
  funext block
  cases block <;>
    simp only [probed, nestedRows, reorders.nestedRow_eq, reorders.resultSchema_eq]

/-- The same right rows are swept. -/
theorem sweptRows_eq (rights lefts : List Row) :
    other.sweptRows rights lefts = plan.sweptRows rights lefts := by
  have padLeft_eq : other.padLeft = plan.padLeft := by
    funext right
    simp only [padLeft, reorders.leftWidth_eq]
  simp only [sweptRows, unpairedRights, padLeft_eq, reorders.pairs_eq]

/-- The block of the sweep is the same. -/
theorem sweepOf_eq (swept : List Row) :
    other.sweepOf swept = plan.sweepOf swept := by
  simp only [sweepOf, reorders.kind_eq, reorders.resultSchema_eq]

/-- No predicate is evaluated on the rows of the right child alone. -/
theorem scanRight_eq : other.scanRight = plan.scanRight := by
  have sameFaults : other.rightFault? = plan.rightFault? := by
    funext before block
    cases block <;>
      simp only [rightFault?, limitFault?, reorders.options_eq,
        reorders.rightWidth_eq]
  funext before script
  simp only [scanRight, sameFaults]

variable {rightScript leftScript : List Block}

/-- The same right rows pass. -/
theorem passedRights_eq :
    other.passedRights rightScript = plan.passedRights rightScript := by
  simp only [passedRights, reorders.scanRight_eq]

/--
Where both plans find no failure, the same blocks pass and are answered in the same
way.
-/
theorem streamed_eq
    (sound : plan.firstFault? rightScript leftScript = none)
    (otherSound : other.firstFault? rightScript leftScript = none) :
    other.streamed rightScript leftScript = plan.streamed rightScript leftScript ∧
      other.passedLefts rightScript leftScript =
        plan.passedLefts rightScript leftScript := by
  obtain ⟨rightSound, leftSound⟩ := Option.or_eq_none_iff.mp sound
  obtain ⟨otherRightSound, otherLeftSound⟩ := Option.or_eq_none_iff.mp otherSound
  have passed_eq :
      (other.scanLeft (other.passedRights rightScript) [] leftScript).passed =
        (plan.scanLeft (plan.passedRights rightScript) [] leftScript).passed :=
    (passed_of_noFault otherLeftSound).trans (passed_of_noFault leftSound).symm
  constructor
  · rw [streamed_of_rightSound rightSound, streamed_of_rightSound otherRightSound,
      passed_eq, reorders.scanRight_eq, reorders.passedRights_eq,
      reorders.probed_eq]
  · exact congrArg rowsOf passed_eq

end Reorders

end JoinPlan

namespace BroadcastJoin

section Reordered

variable {Left Right : Type} [Operator Left] [Drainable Right]
variable {left : Left} {right : Right} {spec : JoinSpec} {residuals : Residuals}
variable {options : JoinOptions} {order otherOrder : BucketOrder}
variable {join other : BroadcastJoin Left Right}

/--
A join that answers the end somewhere finds no failure in any scripts of its
children.
-/
theorem firstFault?_of_ended
    {leftScript rightScript : List Block}
    {count : Nat}
    (accepted : ofSpec left right spec options order = .ok join)
    (leftFollows : Operator.Follows left leftScript)
    (rightFollows : Operator.Follows right rightScript)
    (ended : Operator.answer join count = .ended) :
    join.state.plan.firstFault? rightScript leftScript = none := by
  rw [eq_ofPlan accepted] at ended
  cases outcome : join.state.plan.firstFault? rightScript leftScript with
  | none => rfl
  | some fault =>
      have answered :=
        answers_ofPlan_of_fault leftFollows rightFollows outcome count
      rw [ended] at answered
      cases found : (join.state.plan.streamed rightScript leftScript)[count]? with
      | none => simp [found] at answered
      | some block =>
          rw [found, Option.getD_some] at answered
          have goesOn :=
            JoinPlan.isTerminal_of_mem_streamed (List.mem_of_getElem? found)
          rw [← answered] at goesOn
          cases goesOn

/--
What two joins over the same children answer that differ in the order of their
predicates, if both come to an end: the same blocks up to the sweep, and then the
same rows.
-/
theorem answers_of_samePredicates
    {count otherCount : Nat}
    (same : spec.residuals.SamePredicates residuals)
    (accepted : ofSpec left right spec options order = .ok join)
    (otherAccepted :
      ofSpec left right { spec with residuals := residuals } options otherOrder =
        .ok other)
    (ended : Operator.answer join count = .ended)
    (otherEnded : Operator.answer other otherCount = .ended) :
    ∃ streamed swept otherSwept,
      (∀ block ∈ streamed, block.isTerminal = false) ∧ otherSwept.Perm swept ∧
        Operator.Answers join (streamed ++ join.state.plan.sweepOf swept) .ended ∧
        Operator.Answers other (streamed ++ join.state.plan.sweepOf otherSwept)
          .ended := by
  obtain ⟨leftScript, rightScript, leftFollows, rightFollows, sound⟩ :=
    exists_scripts_of_ended accepted ended
  have otherSound :=
    firstFault?_of_ended otherAccepted leftFollows rightFollows otherEnded
  have join_eq := eq_ofPlan accepted
  have other_eq := eq_ofPlan otherAccepted
  have reorders : other.state.plan.Reorders join.state.plan := by
    obtain ⟨plan, checked, rfl⟩ := exists_plan_of_ofSpec accepted
    obtain ⟨otherPlan, otherChecked, rfl⟩ := exists_plan_of_ofSpec otherAccepted
    exact
      JoinPlan.reorders_of_describes same (JoinPlan.ofSpec_eq_ok_iff.mp checked)
        (JoinPlan.ofSpec_eq_ok_iff.mp otherChecked)
  obtain ⟨swept, unpaired, answers⟩ :=
    answers_ofPlan_of_noFault leftFollows rightFollows sound
  obtain ⟨otherSwept, otherUnpaired, otherAnswers⟩ :=
    answers_ofPlan_of_noFault leftFollows rightFollows otherSound
  obtain ⟨streamed_eq, passedLefts_eq⟩ := reorders.streamed_eq sound otherSound
  rw [passedLefts_eq, reorders.passedRights_eq,
    reorders.sweptRows_eq] at otherUnpaired
  rw [streamed_eq, reorders.sweepOf_eq] at otherAnswers
  refine
    ⟨join.state.plan.streamed rightScript leftScript, swept, otherSwept,
      fun _ => JoinPlan.isTerminal_of_mem_streamed,
        otherUnpaired.trans unpaired.symm, ?_, ?_⟩
  · rw [join_eq]
    exact answers
  · rw [other_eq]
    exact otherAnswers

end Reordered

/--
The first residual predicate that is not true of a row decides about it.  So a row
survives whatever the order of the predicates, and so do the answers of joins: if
two of them differ in that order, and in repetitions of predicates and the order of
their sweeps, and both come to their ends, they have answered the same blocks and
swept the same rows.
-/
theorem residuals_conjoin :
    (∀ (residuals : Residuals) (row : Row), residuals.DecidesByFirst row) ∧
      (∀ residuals others : Residuals, residuals.SamePredicates others →
        ∀ row, others.accepts row = .ok true ↔ residuals.accepts row = .ok true) ∧
      ∀ {Left Right : Type} [Operator Left] [Drainable Right] {left : Left}
          {right : Right} {spec : JoinSpec} {residuals : Residuals}
          {options : JoinOptions} {order otherOrder : BucketOrder}
          {join other : BroadcastJoin Left Right},
        spec.residuals.SamePredicates residuals →
          ofSpec left right spec options order = .ok join →
            ofSpec left right { spec with residuals := residuals } options
                otherOrder =
              .ok other →
              (∃ count, Operator.answer join count = .ended) →
                (∃ count, Operator.answer other count = .ended) →
                  ∃ streamed swept otherSwept,
                    (∀ block ∈ streamed, block.isTerminal = false) ∧
                      otherSwept.Perm swept ∧
                      Operator.Answers join
                        (streamed ++ join.state.plan.sweepOf swept) .ended ∧
                      Operator.Answers other
                        (streamed ++ join.state.plan.sweepOf otherSwept)
                        .ended := by
  refine
    ⟨Residuals.decidesByFirst, fun _ _ => Residuals.accepts_true_of_samePredicates,
      ?_⟩
  rintro Left Right _ _ left right spec residuals options order otherOrder join
    other same accepted otherAccepted ⟨count, ended⟩ ⟨otherCount, otherEnded⟩
  exact answers_of_samePredicates same accepted otherAccepted ended otherEnded

/-- A key with a number. -/
def conjoinedSchema : Schema := ⟨[⟨"key", .int⟩, ⟨"number", .int⟩]⟩

/-- The left number is below the right one. -/
def belowRight : Predicate := (Comparison.columns 1 .below 3).toPredicate

/-- The left number is not six. -/
def notSix : Predicate := (Comparison.columnLiteral 1 .unequal (.int 6)).toPredicate

/-- A join of both sides with the predicates. -/
def conjoinedSpec (residuals : Residuals) : JoinSpec :=
  { JoinSpec.equiJoin .full conjoinedSchema conjoinedSchema ⟨[0]⟩ ⟨[0]⟩ with
    residuals := residuals }

/-- The buckets from the last one to the first one. -/
def reversedOrder : BucketOrder := ⟨List.reverse, List.reverse_perm⟩

/-- Left rows in two blocks, of which one has no number. -/
def conjoinedLeft : Replay :=
  .ofBatches conjoinedSchema
    [[[.int 1, .int 5], [.int 1, .int 6]], [[.int 2, .null]]]

/-- Right rows in two blocks. -/
def conjoinedRight : Replay :=
  .ofBatches conjoinedSchema
    [[[.int 1, .int 7], [.int 1, .int 5]], [[.int 2, .int 8]]]

/--
A small join with two predicates, of which the second one never meets what would
fail it.
-/
def conjoinedJoin : BroadcastJoin Replay Replay :=
  ⟨.ofPlan
      ((JoinPlan.ofSpec (conjoinedSpec ⟨[belowRight, notSix]⟩)
        .default).toOption.get rfl),
    conjoinedLeft, conjoinedRight⟩

/-- The same join with its predicates in another order, one of them twice. -/
def reorderedJoin : BroadcastJoin Replay Replay :=
  ⟨.ofPlan
      ((JoinPlan.ofSpec (conjoinedSpec ⟨[notSix, belowRight, notSix]⟩) .default
        reversedOrder).toOption.get rfl),
    conjoinedLeft, conjoinedRight⟩

/-- Both joins sweep two rows, each in an order of its own. -/
theorem residuals_conjoin_sample :
    Operator.answer conjoinedJoin 3 = .ended ∧
      Operator.answer reorderedJoin 3 = .ended ∧
      Operator.answer conjoinedJoin 2 ≠ Operator.answer reorderedJoin 2 ∧
      ∃ streamed swept otherSwept,
        (∀ block ∈ streamed, block.isTerminal = false) ∧ otherSwept.Perm swept ∧
          Operator.Answers conjoinedJoin
            (streamed ++ conjoinedJoin.state.plan.sweepOf swept) .ended ∧
          Operator.Answers reorderedJoin
            (streamed ++ conjoinedJoin.state.plan.sweepOf otherSwept) .ended := by
  have ended : Operator.answer conjoinedJoin 3 = .ended := by decide
  have otherEnded : Operator.answer reorderedJoin 3 = .ended := by decide
  have same :
      (conjoinedSpec ⟨[belowRight, notSix]⟩).residuals.SamePredicates
        ⟨[notSix, belowRight, notSix]⟩ := by
    intro predicate
    simp only [conjoinedSpec, List.mem_cons, List.not_mem_nil, or_false]
    tauto
  have accepted :
      ofSpec conjoinedLeft conjoinedRight (conjoinedSpec ⟨[belowRight, notSix]⟩)
          .default .byKey =
        .ok conjoinedJoin := rfl
  have otherAccepted :
      ofSpec conjoinedLeft conjoinedRight
          (conjoinedSpec ⟨[notSix, belowRight, notSix]⟩) .default reversedOrder =
        .ok reorderedJoin := rfl
  exact
    ⟨ended, otherEnded, by decide,
      residuals_conjoin.2.2 same accepted otherAccepted ⟨3, ended⟩ ⟨3, otherEnded⟩⟩

end BroadcastJoin

end StreamJoin
