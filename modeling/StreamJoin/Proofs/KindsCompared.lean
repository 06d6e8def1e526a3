import StreamJoin.Proofs.PlanKinds
import StreamJoin.Proofs.WholeRun

namespace StreamJoin

/-!
# The six kinds on the same inputs

Joins that differ only in their kind stand over the same children and get the same
requests.  They are compared pull by pull, whatever the children hand out: data in
any batches, rows of a wrong width, failures, or nothing.

The comparison of two kinds is a comparison of what they answer to one pull.  Kinds
with a sweep answer as the kinds without it up to the end of the left input.  Kinds
that keep unpaired left rows insert them, padded, where they stand.  Of the kinds
that look for presence each left row goes to exactly one.
-/

namespace JoinPlan

/--
Scripts of two children that do not fail and keep to the widths and the row limit.
-/
structure Fits (plan : JoinPlan) (leftScript rightScript : List Block) : Prop where
  leftGoesOn : ∀ block ∈ leftScript, block.isTerminal = false
  rightGoesOn : ∀ block ∈ rightScript, block.isTerminal = false
  leftWidths : ∀ row ∈ rowsOf leftScript, row.length = plan.leftWidth
  rightWidths : ∀ row ∈ rowsOf rightScript, row.length = plan.rightWidth
  withinLimit :
    ∀ limit,
      plan.options.rowLimit = some limit → (rowsOf rightScript).length ≤ limit

/--
A left block of which some rows are kept, padded; control blocks stay as they are.
-/
def keptBlock (plan : JoinPlan) (kept : Row → Bool) : Block → Block
  | .data batch => .ofRows (plan.paddedOf kept batch.rows) plan.resultSchema
  | control => control

end JoinPlan

namespace BroadcastJoin

namespace Finishes

variable {Left Right : Type}
variable {plan : JoinPlan} {kind : JoinKind} {order : BucketOrder}
variable {rights lefts : List Row} {block : Block} {next : BroadcastJoin Left Right}

/-- Without a sweep the left input ends with the end of the stream. -/
theorem block_of_noSweep
    (finishes : Finishes (plan.withKind kind order) rights lefts block next)
    (noSweep : kind.sweepsRight = false) :
    block = .ended := by
  rcases finishes.block_eq with ⟨_, ended⟩ | ⟨sweeps, _⟩
  · exact ended
  · cases noSweep.symm.trans sweeps

/-- With a sweep the left input ends with the unpaired right rows, in some order. -/
theorem exists_swept
    (finishes : Finishes (plan.withKind kind order) rights lefts block next)
    (sweeps : kind.sweepsRight = true) :
    ∃ swept, swept.Perm (plan.sweptRows rights lefts) ∧
      block = .ofRows swept plan.resultSchema := by
  rcases finishes.block_eq with ⟨noSweep, _⟩ | ⟨_, swept, unpaired, answered⟩
  · cases noSweep.symm.trans sweeps
  · exact ⟨swept, unpaired, answered⟩

end Finishes

variable {Left Right : Type} [Operator Left] [Drainable Right]

/-- A join without a sweep answers the end of its left input. -/
def EndsNow (join : BroadcastJoin Left Right) : Prop :=
  join.state.isActive = true ∧ (Operator.pull join).block = .ended

/-- A join that answers as another one until that one ends, and sweeps there. -/
structure SameUntilSweep (plain sweeping : BroadcastJoin Left Right) : Prop where
  same :
    ¬ plain.EndsNow → (Operator.pull sweeping).block = (Operator.pull plain).block
  swept :
    plain.EndsNow →
      (Operator.pull plain.left).block = .ended ∧
        (Operator.pull sweeping).block.isData = true ∧
        (Operator.pull sweeping).next.state.phase = .done

/--
A join that answers the rows of another one and inserts, where it stands among them,
each row of the left block that forms no pair.
-/
inductive InsertsUnpaired
    (plan : JoinPlan)
    (pairing padding : BroadcastJoin Left Right) : Prop where
  | control
      (noData : (Operator.pull pairing).block.isData = false)
      (same : (Operator.pull padding).block = (Operator.pull pairing).block)
  | data
      {taken : Batch}
      {rights : List Row}
      (takes : (Operator.pull pairing.left).block = .data taken)
      (table_eq : (Operator.pull pairing).next.state.table = plan.tableOf rights)
      (pairs :
        (Operator.pull pairing).block =
          .ofRows (taken.rows.flatMap (plan.pairsOf rights)) plan.resultSchema)
      (inserted :
        (Operator.pull padding).block =
          .ofRows (taken.rows.flatMap (plan.paddedPairs rights)) plan.resultSchema)

/--
Two joins of which each hands out some of the rows of a left block, padded and in
their order; each row goes to exactly one of them.  Only a failure keeps a left
block that is taken from being split.
-/
inductive SplitsLeft
    (plan : JoinPlan)
    (present absent : BroadcastJoin Left Right) : Prop where
  | control
      (noData : (Operator.pull present).block.isData = false)
      (same : (Operator.pull absent).block = (Operator.pull present).block)
      (notSplit :
        (Operator.pull present).next.left = present.left ∨
          (Operator.pull present).block.isFailed = true ∨
          (Operator.pull present.left).block.isData = false)
  | data
      {taken : Batch}
      {rights : List Row}
      (takes : (Operator.pull present.left).block = .data taken)
      (table_eq : (Operator.pull present).next.state.table = plan.tableOf rights)
      (kept :
        (Operator.pull present).block =
          .ofRows
            (plan.paddedOf (fun left => rights.any (plan.sameKey left)) taken.rows)
            plan.resultSchema)
      (dropped :
        (Operator.pull absent).block =
          .ofRows
            (plan.paddedOf (fun left => !rights.any (plan.sameKey left)) taken.rows)
            plan.resultSchema)

/-- A join that hands out only those rows of another one that are padded. -/
inductive KeepsPadded
    (plan : JoinPlan)
    (padding absent : BroadcastJoin Left Right) : Prop where
  | control
      (noData : (Operator.pull padding).block.isData = false)
      (same : (Operator.pull absent).block = (Operator.pull padding).block)
  | data
      {taken : Batch}
      {rights : List Row}
      (takes : (Operator.pull padding.left).block = .data taken)
      (table_eq : (Operator.pull padding).next.state.table = plan.tableOf rights)
      (all :
        (Operator.pull padding).block =
          .ofRows (taken.rows.flatMap (plan.paddedPairs rights)) plan.resultSchema)
      (padded :
        (Operator.pull absent).block =
          .ofRows
            (plan.paddedOf (fun left => (plan.pairsOf rights left).isEmpty)
              taken.rows)
            plan.resultSchema)

/-- The answers of the six kinds to one pull. -/
structure KindsConsistent
    (plan : JoinPlan)
    (joins : JoinKind → BroadcastJoin Left Right) : Prop where
  inner_right : SameUntilSweep (joins .inner) (joins .right)
  left_full : SameUntilSweep (joins .left) (joins .full)
  right_full :
    (joins .inner).EndsNow →
      SweepAlike (Operator.pull (joins .right)) (Operator.pull (joins .full))
  inner_left : InsertsUnpaired plan (joins .inner) (joins .left)
  semi_anti : SplitsLeft plan (joins .semi) (joins .anti)
  left_anti :
    plan.residuals.isEmpty = true → KeepsPadded plan (joins .left) (joins .anti)

section Pairs

variable {plan : JoinPlan} {first second : JoinKind} {order other : BucketOrder}
variable {join otherJoin : BroadcastJoin Left Right}

/--
Two joins of one plan and two kinds, over children that may hand out any rows.
-/
def KindsInLockstep
    (plan : JoinPlan)
    (first second : JoinKind)
    (order other : BucketOrder)
    (join otherJoin : BroadcastJoin Left Right) : Prop :=
  Lockstep (plan.withKind first order) (plan.withKind second other) (fun _ => True)
    (fun _ => True) join otherJoin

/-- What two kinds that find the same failures answer to one pull. -/
theorem kinds_pull
    (alike :
      (plan.withKind first order).FaultsAlike (plan.withKind second other)
        (fun _ => True) fun _ => True)
    (lockstep : KindsInLockstep plan first second order other join otherJoin) :
    (join.state.isActive = false ∧
        (Operator.pull otherJoin).block = (Operator.pull join).block ∧
        (Operator.pull join).next = join ∧
          (Operator.pull join).block.isData = false) ∨
      (join.state.isActive = true ∧
        AnswersBeside (plan.withKind first order) (plan.withKind second other)
          (fun _ => True) (fun _ => True) join.left (Operator.pull join).block
          (Operator.pull otherJoin).block (Operator.pull join).next
          (Operator.pull otherJoin).next) := by
  cases active : join.state.isActive with
  | true => exact .inr ⟨rfl, (stepsBeside_pull alike lockstep active).answers⟩
  | false =>
      obtain ⟨block_eq, next_eq, _⟩ := lockstep.repeats active
      have answered : (Operator.pull join).block = join.state.lastBlock :=
        (pull_of_inactive active).1
      refine .inl ⟨rfl, block_eq.symm, next_eq, ?_⟩
      rw [answered, JoinState.lastBlock]
      split <;> rfl

/-- A kind with a sweep answers as one without it that leads to the same rows. -/
theorem sameUntilSweep_of_lockstep
    (lockstep : KindsInLockstep plan first second order other join otherJoin)
    (looksForPairs : first.presence? = none)
    (otherLooks : second.presence? = none)
    (noSweep : first.sweepsRight = false)
    (sweeps : second.sweepsRight = true)
    (sameRows :
      ∀ rights lefts,
        (plan.withKind first order).nestedRows rights lefts =
          (plan.withKind second other).nestedRows rights lefts) :
    SameUntilSweep join otherJoin := by
  rcases kinds_pull (JoinPlan.faultsAlike_of_pairing looksForPairs otherLooks)
    lockstep with ⟨inactive, block_eq, _⟩ | ⟨active, answers⟩
  · exact {
      same := fun _ => block_eq
      swept := fun ends => by
        cases inactive.symm.trans ends.1
    }
  · cases answers with
    | same _ goesOn block_eq =>
        exact {
          same := fun _ => block_eq.symm
          swept := fun ends => by
            rw [ends.2] at goesOn
            cases goesOn
        }
    | @probed taken rights _ _ _ _ block_eq otherBlock_eq =>
        exact {
          same := fun _ => by rw [block_eq, otherBlock_eq, sameRows]; rfl
          swept := fun ends => by
            rw [ends.2] at block_eq
            cases block_eq
        }
    | finished leftEnds _ _ finishes otherFinishes =>
        have ended := finishes.block_of_noSweep noSweep
        obtain ⟨swept, _, answered⟩ := otherFinishes.exists_swept sweeps
        exact {
          same := fun notEnding => absurd ⟨active, ended⟩ notEnding
          swept := fun _ => ⟨leftEnds, by rw [answered]; rfl, otherFinishes.done⟩
        }

/-- Two kinds that sweep at the end of their left child hand out the same rows. -/
theorem sweepAlike_of_lockstep
    (lockstep : KindsInLockstep plan first second order other join otherJoin)
    (looksForPairs : first.presence? = none)
    (otherLooks : second.presence? = none)
    (sweeps : first.sweepsRight = true)
    (otherSweeps : second.sweepsRight = true)
    (isData : (Operator.pull join).block.isData = true)
    (leftEnds : (Operator.pull join.left).block = .ended) :
    SweepAlike (Operator.pull join) (Operator.pull otherJoin) := by
  rcases kinds_pull (JoinPlan.faultsAlike_of_pairing looksForPairs otherLooks)
    lockstep with ⟨_, _, _, noData⟩ | ⟨_, answers⟩
  · cases isData.symm.trans noData
  · cases answers with
    | same noData => cases isData.symm.trans noData
    | probed takes => cases leftEnds.symm.trans takes
    | finished _ _ _ finishes otherFinishes =>
        obtain ⟨swept, unpaired, answered⟩ := finishes.exists_swept sweeps
        obtain ⟨others, otherUnpaired, otherAnswered⟩ :=
          otherFinishes.exists_swept otherSweeps
        exact
          ⟨swept, others, plan.resultSchema, unpaired.trans otherUnpaired.symm,
            answered, otherAnswered, finishes.done, otherFinishes.done⟩

/--
In lockstep a left join inserts unpaired rows into the blocks of an inner one.
-/
theorem insertsUnpaired_of_lockstep
    (lockstep : KindsInLockstep plan .inner .left order other join otherJoin) :
    InsertsUnpaired plan join otherJoin := by
  rcases kinds_pull (JoinPlan.faultsAlike_of_pairing rfl rfl) lockstep with
      ⟨_, block_eq, _, noData⟩ | ⟨_, answers⟩
  · exact .control noData block_eq
  · cases answers with
    | same noData _ block_eq => exact .control noData block_eq.symm
    | probed takes _ _ table_eq block_eq otherBlock_eq =>
        exact .data takes table_eq block_eq otherBlock_eq
    | finished _ _ _ finishes otherFinishes =>
        have ended := finishes.block_of_noSweep rfl
        have otherEnded := otherFinishes.block_of_noSweep rfl
        exact .control (by rw [ended]; rfl) (otherEnded.trans ended.symm)

/-- In lockstep a semi and an anti join split the left rows. -/
theorem splitsLeft_of_lockstep
    (lockstep : KindsInLockstep plan .semi .anti order other join otherJoin) :
    SplitsLeft plan join otherJoin := by
  rcases kinds_pull (JoinPlan.faultsAlike_of_presence rfl rfl) lockstep with
      ⟨_, block_eq, next_eq, noData⟩ | ⟨_, answers⟩
  · exact .control noData block_eq (.inl (congrArg BroadcastJoin.left next_eq))
  · cases answers with
    | same noData _ block_eq leftQuiet =>
        exact .control noData block_eq.symm leftQuiet
    | probed takes _ _ table_eq block_eq otherBlock_eq =>
        rw [JoinPlan.nestedRows_semi] at block_eq
        rw [JoinPlan.nestedRows_anti] at otherBlock_eq
        exact .data takes table_eq block_eq otherBlock_eq
    | finished leftEnds _ _ finishes otherFinishes =>
        have ended := finishes.block_of_noSweep rfl
        have otherEnded := otherFinishes.block_of_noSweep rfl
        exact
          .control (by rw [ended]; rfl) (otherEnded.trans ended.symm)
            (.inr (.inr (by rw [leftEnds]; rfl)))

/-- In lockstep an anti join keeps the padded rows of a left one. -/
theorem keepsPadded_of_lockstep
    (noResiduals : plan.residuals.isEmpty = true)
    (lockstep : KindsInLockstep plan .left .anti order other join otherJoin) :
    KeepsPadded plan join otherJoin := by
  rcases kinds_pull (JoinPlan.faultsAlike_of_isEmpty noResiduals) lockstep with
      ⟨_, block_eq, _, noData⟩ | ⟨_, answers⟩
  · exact .control noData block_eq
  · cases answers with
    | same noData _ block_eq => exact .control noData block_eq.symm
    | probed takes _ _ table_eq block_eq otherBlock_eq =>
        simp only [JoinPlan.nestedRows_anti,
          ← JoinPlan.isEmpty_pairsOf_of_isEmpty noResiduals]
            at otherBlock_eq
        exact .data takes table_eq block_eq otherBlock_eq
    | finished _ _ _ finishes otherFinishes =>
        have ended := finishes.block_of_noSweep rfl
        have otherEnded := otherFinishes.block_of_noSweep rfl
        exact .control (by rw [ended]; rfl) (otherEnded.trans ended.symm)

end Pairs

section Requests

variable {left : Left} {right : Right} {plan : JoinPlan}

/-- The join of one kind over two children. -/
def ofKind
    (plan : JoinPlan)
    (orders : JoinKind → BucketOrder)
    (left : Left)
    (right : Right)
    (kind : JoinKind) : BroadcastJoin Left Right :=
  ⟨.ofPlan (plan.withKind kind (orders kind)), left, right⟩

/-- Joins of two kinds whose rows fail alike go in lockstep. -/
theorem lockstep_ofKind
    {first second : JoinKind}
    {orders : JoinKind → BucketOrder}
    (alike :
      (plan.withKind first (orders first)).FaultsAlike
        (plan.withKind second (orders second)) (fun _ => True) fun _ => True)
    (calls : List Call) :
    KindsInLockstep plan first second (orders first) (orders second)
      (Operator.afterCalls (ofKind plan orders left right first) calls)
      (Operator.afterCalls (ofKind plan orders left right second) calls) :=
  lockstep_afterCalls alike
    (lockstep_ofPlan (fun _ _ => trivial) fun _ _ => trivial) calls

/-- After any requests the kinds are consistent in what they answer to a pull. -/
theorem kindsConsistent_afterCalls
    (orders : JoinKind → BucketOrder)
    (calls : List Call) :
    KindsConsistent plan fun kind =>
      Operator.afterCalls (ofKind plan orders left right kind) calls := by
  have pairing {first second : JoinKind}
      (looksForPairs : first.presence? = none)
      (otherLooks : second.presence? = none) :
      KindsInLockstep plan first second (orders first) (orders second)
        (Operator.afterCalls (ofKind plan orders left right first) calls)
        (Operator.afterCalls (ofKind plan orders left right second) calls) :=
    lockstep_ofKind (JoinPlan.faultsAlike_of_pairing looksForPairs otherLooks) calls
  have innerRight :=
    sameUntilSweep_of_lockstep (@pairing .inner .right rfl rfl) rfl rfl rfl
      rfl fun _ _ => rfl
  exact {
    inner_right := innerRight
    left_full :=
      sameUntilSweep_of_lockstep (@pairing .left .full rfl rfl) rfl rfl rfl
        rfl fun _ _ => rfl
    right_full := fun ends => by
      obtain ⟨leftEnds, isData, _⟩ := innerRight.swept ends
      rw [← (@pairing .inner .right rfl rfl).left_eq ends.1] at leftEnds
      exact
        sweepAlike_of_lockstep (@pairing .right .full rfl rfl) rfl rfl rfl rfl
          isData leftEnds
    inner_left := insertsUnpaired_of_lockstep (@pairing .inner .left rfl rfl)
    semi_anti :=
      splitsLeft_of_lockstep
        (lockstep_ofKind (JoinPlan.faultsAlike_of_presence rfl rfl) calls)
    left_anti := fun noResiduals =>
      keepsPadded_of_lockstep noResiduals
        (lockstep_ofKind (JoinPlan.faultsAlike_of_isEmpty noResiduals) calls)
  }

/--
A kind that asks whether a key is present hands out the left rows it keeps, padded.
-/
theorem answers_of_presence
    {kind : JoinKind}
    {order : BucketOrder}
    {keptOf : List Row → Row → Bool}
    {leftScript rightScript : List Block}
    (looksForPresence : kind.presence?.isSome = true)
    (nestedRows_eq :
      ∀ rights lefts,
        (plan.withKind kind order).nestedRows rights lefts =
          plan.paddedOf (keptOf rights) lefts)
    (leftFollows : Operator.Follows left leftScript)
    (rightFollows : Operator.Follows right rightScript)
    (fits : plan.Fits leftScript rightScript) :
    Operator.Answers
      (BroadcastJoin.mk (.ofPlan (plan.withKind kind order)) left right)
      (idlesOf rightScript ++
        leftScript.map (plan.keptBlock (keptOf (rowsOf rightScript))))
      .ended := by
  have admits :
      (plan.withKind kind order).Admits ↑(rowsOf leftScript)
        ↑(rowsOf rightScript) := {
    leftWidths := fits.leftWidths
    rightWidths := fits.rightWidths
    withinLimit := fits.withinLimit
    evaluates := fun notSemi notAnti => by
      cases kind with
      | semi => exact absurd rfl notSemi
      | anti => exact absurd rfl notAnti
      | _ => cases looksForPresence
  }
  obtain ⟨swept, _, answers⟩ :=
    answers_ofPlan_of_admits leftFollows rightFollows fits.leftGoesOn
      fits.rightGoesOn admits
  have noSweep : (plan.withKind kind order).sweepOf swept = [] := by
    cases kind <;> first | rfl | cases looksForPresence
  have sameBlocks :
      leftScript.map ((plan.withKind kind order).probed (rowsOf rightScript)) =
        leftScript.map (plan.keptBlock (keptOf (rowsOf rightScript))) := by
    apply List.map_congr_left
    intro block _
    cases block with
    | data batch =>
        exact congrArg (Block.ofRows · plan.resultSchema) (nestedRows_eq _ _)
    | ended => rfl
    | idle => rfl
    | failed cause => rfl
  rw [noSweep, List.append_nil, sameBlocks] at answers
  exact answers

/--
A description that is accepted for one kind is accepted for all six, and whatever is
asked of the six joins over the same children, they are consistent in what they
answer to the next pull.  If no child fails, and the widths and the row limit are
kept, then the kinds that look for presence split each left block between them.
-/
theorem kinds_consistent
    {spec : JoinSpec}
    {options : JoinOptions}
    {order : BucketOrder}
    {join : BroadcastJoin Left Right}
    (accepted : ofSpec left right spec options order = .ok join)
    (orders : JoinKind → BucketOrder) :
    ∃ joins : JoinKind → BroadcastJoin Left Right,
      (∀ kind,
        ofSpec left right (spec.withKind kind) options (orders kind) =
          .ok (joins kind)) ∧
      (∀ calls,
        KindsConsistent join.state.plan fun kind =>
          Operator.afterCalls (joins kind) calls) ∧
      ∀ leftScript rightScript,
        Operator.Follows left leftScript →
        Operator.Follows right rightScript →
        join.state.plan.Fits leftScript rightScript →
          let present :=
            fun row => (rowsOf rightScript).any (join.state.plan.sameKey row)
          Operator.Answers (joins .semi)
              (idlesOf rightScript ++
                leftScript.map (join.state.plan.keptBlock present))
              .ended ∧
            Operator.Answers (joins .anti)
              (idlesOf rightScript ++
                leftScript.map (join.state.plan.keptBlock fun row => !present row))
              .ended := by
  obtain ⟨plan, checked, rfl⟩ := exists_plan_of_ofSpec accepted
  have describes := JoinPlan.ofSpec_eq_ok_iff.mp checked
  refine ⟨ofKind plan orders left right, ?_, kindsConsistent_afterCalls orders, ?_⟩
  · intro kind
    have kindChecked :=
      JoinPlan.ofSpec_eq_ok_iff.mpr
        (JoinPlan.describes_withKind describes kind (orders kind))
    simp only [ofSpec, kindChecked, Except.map, ofKind]
  · intro leftScript rightScript leftFollows rightFollows fits present
    exact
      ⟨answers_of_presence rfl (fun _ _ => JoinPlan.nestedRows_semi) leftFollows
          rightFollows fits,
        answers_of_presence rfl (fun _ _ => JoinPlan.nestedRows_anti) leftFollows
          rightFollows fits⟩

end Requests

/-- The sample rows fit the sample plan. -/
theorem fits_sample : samplePlan.Fits sampleLefts sampleRights where
  leftGoesOn := by decide
  rightGoesOn := by decide
  leftWidths := by decide
  rightWidths := by decide
  withinLimit := by
    rintro limit ⟨⟩
    decide

/--
In the third pull the first left block is taken.  Both of its keys are present; a
null in a key is present if the right rows have one.
-/
theorem kinds_consistent_sample :
    ∃ joins : JoinKind → BroadcastJoin Replay Replay,
      (∀ kind,
        ofSpec (Replay.ofBlocks sampleLefts) (Replay.ofBlocks sampleRights)
            (sampleSpec.withKind kind) ⟨some 5⟩ .byKey =
          .ok (joins kind)) ∧
      KindsConsistent samplePlan
        (fun kind => Operator.afterCalls (joins kind) [.pull, .pull]) ∧
      Operator.Answers (joins .semi)
        [.idle, .idle,
          .ofRows [[.int 1, .int 5, .null, .null], [.null, .int 1, .null, .null]]
            samplePlan.resultSchema,
          .ofRows [] samplePlan.resultSchema,
          .ofRows [[.int 2, .null, .null, .null]] samplePlan.resultSchema]
        .ended ∧
      Operator.Answers (joins .anti)
        [.idle, .idle, .ofRows [] samplePlan.resultSchema,
          .ofRows [] samplePlan.resultSchema, .ofRows [] samplePlan.resultSchema]
        .ended := by
  obtain ⟨joins, allAccepted, consistent, split⟩ :=
    kinds_consistent (ofSpec_sampleSpec sampleLefts sampleRights) fun _ => .byKey
  obtain ⟨semi, anti⟩ :=
    split sampleLefts sampleRights (Replay.follows_queued _)
      (Replay.follows_queued _) fits_sample
  exact ⟨joins, allAccepted, consistent _, semi, anti⟩

end BroadcastJoin

end StreamJoin
