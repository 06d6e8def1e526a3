import Mathlib.Data.Multiset.Defs
import StreamJoin.Proofs.ScriptedJoin
import StreamJoin.Residual.Comparison

namespace StreamJoin

/-!
# Whole runs of a join

A freshly built join is pulled until it repeats itself.  There are two main results.

`answers_of_scripts` holds for all scripts of the children: the join fails exactly
when the scans of the scripts find a failure, with the first failure that they find,
and it answers each left block in front of it by the nested loop over all right
rows.

`answers_nestedLoop` is the case in which nothing can fail.  Then every left block
is answered, a kind with a sweep hands out the unpaired right rows in one more
block, and the stream ends.
-/

namespace JoinPlan

/--
The first failure that the scans of the two scripts find, the right one first.
-/
def firstFault? (plan : JoinPlan) (rightScript leftScript : List Block) :
    Option Fault :=
  let right := plan.scanRight [] rightScript
  right.fault?.or (plan.scanLeft (rowsOf right.passed) [] leftScript).fault?

/--
What is answered before the first failure or the end of the left script: the idle
blocks of the right script and, if that one ends well, an answer to each left block.
-/
def streamed (plan : JoinPlan) (rightScript leftScript : List Block) : List Block :=
  let right := plan.scanRight [] rightScript
  match right.fault? with
  | some _ => idlesOf right.passed
  | none =>
      idlesOf right.passed ++
        (plan.scanLeft (rowsOf right.passed) [] leftScript).passed.map
          (plan.probed (rowsOf right.passed))

/-- The rows of the left blocks in front of the first failure. -/
def passedLefts (plan : JoinPlan) (rightScript leftScript : List Block) :
    List Row :=
  rowsOf
    (plan.scanLeft (rowsOf (plan.scanRight [] rightScript).passed) []
      leftScript).passed

/-- The rows of the right blocks in front of the first failure. -/
def passedRights (plan : JoinPlan) (rightScript : List Block) : List Row :=
  rowsOf (plan.scanRight [] rightScript).passed

/--
Rows that a join can take without a failure, in whatever order they come: they have
the widths of their sides, the right ones keep the row limit, and no residual
predicate fails on two rows with the same key, if the kind evaluates the predicates
at all.
-/
structure Admits (plan : JoinPlan) (lefts rights : Multiset Row) : Prop where
  leftWidths : ∀ row ∈ lefts, row.length = plan.leftWidth
  rightWidths : ∀ row ∈ rights, row.length = plan.rightWidth
  withinLimit : ∀ limit, plan.options.rowLimit = some limit → rights.card ≤ limit
  evaluates :
    plan.kind ≠ .semi → plan.kind ≠ .anti →
      ∀ left ∈ lefts, ∀ right ∈ rights, plan.sameKey left right = true →
        plan.residualFault? (pair left right) = none

variable {plan : JoinPlan}

/-- Rows of the expected width meet no failure. -/
theorem widthFault?_of_widths
    {side : Side}
    {expected : Nat}
    {rows : List Row}
    (widths : ∀ row ∈ rows, row.length = expected) :
    widthFault? side expected rows = none := by
  rw [widthFault?, Option.map_eq_none_iff, List.find?_eq_none]
  intro row member
  simp [widths row member]

/-- As many rows as the limit admits meet no failure. -/
theorem limitFault?_of_le
    {rows total : Nat}
    (withinLimit : ∀ limit, plan.options.rowLimit = some limit → total ≤ limit)
    (le : rows ≤ total) :
    plan.limitFault? rows = none := by
  unfold limitFault?
  cases rowLimit : plan.options.rowLimit with
  | none => rfl
  | some limit =>
      have enough := withinLimit limit rowLimit
      have notExceeded : ¬ limit < rows := by omega
      simp [notExceeded]

/--
A left row does not fail if the predicates can be evaluated on its candidates.
-/
theorem rowFault?_of_evaluates
    {left : Row}
    {rights : List Row}
    (evaluates :
      plan.kind ≠ .semi → plan.kind ≠ .anti →
        ∀ right ∈ rights, plan.sameKey left right = true →
          plan.residualFault? (pair left right) = none) :
    plan.rowFault? rights left = none := by
  unfold rowFault?
  split
  · rfl
  · rfl
  · rename_i notSemi notAnti
    rw [List.findSome?_eq_none_iff]
    intro right member
    obtain ⟨inRights, agree⟩ := List.mem_filter.mp member
    exact evaluates notSemi notAnti right inRights agree

/-- Left rows do not fail if the predicates can be evaluated on all candidates. -/
theorem pairFault?_of_evaluates
    {lefts rights : List Row}
    (evaluates :
      plan.kind ≠ .semi → plan.kind ≠ .anti →
        ∀ left ∈ lefts, ∀ right ∈ rights, plan.sameKey left right = true →
          plan.residualFault? (pair left right) = none) :
    plan.pairFault? rights lefts = none := by
  rw [pairFault?, List.findSome?_eq_none_iff]
  intro left member
  exact
    rowFault?_of_evaluates fun notSemi notAnti =>
      evaluates notSemi notAnti left member

/-- A block of a script of admitted right rows passes behind the rows before it. -/
theorem rightFault?_of_admits
    {lefts : Multiset Row}
    {earlier later : List Block}
    {block : Block}
    (goesOn : block.isTerminal = false)
    (admits : plan.Admits lefts ↑(rowsOf (earlier ++ block :: later))) :
    plan.rightFault? (rowsOf earlier) block = none := by
  cases block with
  | ended => cases goesOn
  | idle => rfl
  | failed cause => cases goesOn
  | data batch =>
      have fits :
          (rowsOf earlier).length + batch.size ≤
            (rowsOf (earlier ++ .data batch :: later)).length := by
        simp only [rowsOf_append, rowsOf_cons, List.length_append, Batch.size,
          Block.rows]
        omega
      have widths : ∀ row ∈ batch.rows, row.length = plan.rightWidth := by
        intro row member
        apply admits.rightWidths
        rw [Multiset.mem_coe, rowsOf_append, rowsOf_cons]
        exact List.mem_append_right _ (List.mem_append_left _ member)
      rw [rightFault?, limitFault?_of_le admits.withinLimit fits,
        widthFault?_of_widths widths]
      rfl

/-- A block of a script of admitted left rows passes. -/
theorem leftFault?_of_admits
    {script : List Block}
    {rights : List Row}
    {block : Block}
    (goesOn : block.isTerminal = false)
    (inScript : block ∈ script)
    (admits : plan.Admits ↑(rowsOf script) ↑rights) :
    plan.leftFault? rights block = none := by
  cases block with
  | ended => cases goesOn
  | idle => rfl
  | failed cause => cases goesOn
  | data batch =>
      have admitted : ∀ row ∈ batch.rows, row ∈ rowsOf script :=
        fun row member => List.mem_flatMap.mpr ⟨.data batch, inScript, member⟩
      have widths : ∀ row ∈ batch.rows, row.length = plan.leftWidth :=
        fun row member => admits.leftWidths row (admitted row member)
      have evaluates : plan.pairFault? rights batch.rows = none :=
        pairFault?_of_evaluates fun notSemi notAnti left member =>
          admits.evaluates notSemi notAnti left (admitted left member)
      rw [leftFault?, widthFault?_of_widths widths, evaluates]
      rfl

/-- Admitted right blocks pass the scan. -/
theorem scanRight_of_admits
    {script : List Block}
    {lefts : Multiset Row}
    (goesOn : ∀ block ∈ script, block.isTerminal = false)
    (admits : plan.Admits lefts ↑(rowsOf script)) :
    plan.scanRight [] script = ⟨script, none⟩ := by
  apply scan_of_passes goesOn
  intro earlier block later shape
  subst shape
  exact rightFault?_of_admits (goesOn block (by simp)) admits

/-- Admitted left blocks pass the scan. -/
theorem scanLeft_of_admits
    {script : List Block}
    {rights : List Row}
    (goesOn : ∀ block ∈ script, block.isTerminal = false)
    (admits : plan.Admits ↑(rowsOf script) ↑rights) :
    plan.scanLeft rights [] script = ⟨script, none⟩ := by
  apply scan_of_passes goesOn
  intro earlier block later shape
  have inScript : block ∈ script := by
    rw [shape]
    simp
  exact leftFault?_of_admits (goesOn block inScript) inScript admits

/-- Admitted blocks meet no failure. -/
theorem firstFault?_of_admits
    {leftBlocks rightBlocks : List Block}
    (leftGoesOn : ∀ block ∈ leftBlocks, block.isTerminal = false)
    (rightGoesOn : ∀ block ∈ rightBlocks, block.isTerminal = false)
    (admits : plan.Admits ↑(rowsOf leftBlocks) ↑(rowsOf rightBlocks)) :
    plan.firstFault? rightBlocks leftBlocks = none := by
  simp only [firstFault?, scanRight_of_admits rightGoesOn admits,
    scanLeft_of_admits leftGoesOn admits, Option.or_none]

section Streamed

variable {rightScript leftScript : List Block}

/-- After a failure on the right nothing but idle blocks was streamed. -/
theorem streamed_of_rightFault
    {fault : Fault}
    (fails : (plan.scanRight [] rightScript).fault? = some fault) :
    plan.streamed rightScript leftScript =
      idlesOf (plan.scanRight [] rightScript).passed := by
  simp only [streamed, fails]

/-- After a sound right input each left block that passed was answered. -/
theorem streamed_of_rightSound
    (sound : (plan.scanRight [] rightScript).fault? = none) :
    plan.streamed rightScript leftScript =
      idlesOf (plan.scanRight [] rightScript).passed ++
        (plan.scanLeft (plan.passedRights rightScript) [] leftScript).passed.map
          (plan.probed (plan.passedRights rightScript)) := by
  simp only [streamed, sound, passedRights]

/-- No block that is streamed ends anything. -/
theorem isTerminal_of_mem_streamed
    {block : Block}
    (member : block ∈ plan.streamed rightScript leftScript) :
    block.isTerminal = false := by
  have inRight :
      ∀ later ∈ idlesOf (plan.scanRight [] rightScript).passed,
        later.isTerminal = false := by
    intro later isIdle
    exact isTerminal_of_mem_passed (fun _ _ => rfl) (List.mem_filter.mp isIdle).1
  cases outcome : (plan.scanRight [] rightScript).fault? with
  | some fault =>
      rw [streamed_of_rightFault outcome] at member
      exact inRight block member
  | none =>
      rw [streamed_of_rightSound outcome] at member
      rcases List.mem_append.mp member with isIdle | isProbed
      · exact inRight block isIdle
      · obtain ⟨taken, passed, rfl⟩ := List.mem_map.mp isProbed
        have goesOn := isTerminal_of_mem_passed (fun _ _ => rfl) passed
        cases taken with
        | data batch => rfl
        | idle => rfl
        | ended => cases goesOn
        | failed cause => cases goesOn

/-- The block of the sweep ends nothing. -/
theorem isTerminal_of_mem_sweepOf
    {swept : List Row}
    {block : Block}
    (member : block ∈ plan.sweepOf swept) :
    block.isTerminal = false := by
  unfold sweepOf at member
  split at member
  · rw [List.mem_singleton.mp member]
    rfl
  · cases member

end Streamed

end JoinPlan

/-- A failure is answered only as the block that is repeated for ever. -/
theorem Operator.exists_answer_failed_iff
    {State : Type}
    [Operator State]
    {state : State}
    {blocks : List Block}
    {last : Block}
    {cause : Fault}
    (answers : Operator.Answers state blocks last)
    (goesOn : ∀ block ∈ blocks, block.isTerminal = false) :
    (∃ count, Operator.answer state count = .failed cause) ↔
      last = .failed cause := by
  constructor
  · rintro ⟨count, answered⟩
    rw [answers count] at answered
    cases found : blocks[count]? with
    | none =>
        rw [found] at answered
        exact answered
    | some block =>
        rw [found, Option.getD_some] at answered
        have terminal := goesOn block (List.mem_of_getElem? found)
        rw [answered] at terminal
        cases terminal
  · rintro rfl
    refine ⟨blocks.length, ?_⟩
    rw [answers, List.getElem?_eq_none (Nat.le_refl _), Option.getD_none]

namespace BroadcastJoin

variable {Left Right : Type} {left : Left} {right : Right}
variable {spec : JoinSpec} {options : JoinOptions} {order : BucketOrder}
variable {join : BroadcastJoin Left Right}
variable [Operator Left] [Drainable Right] {plan : JoinPlan}
variable {leftScript rightScript : List Block}

/--
The first pull of a join begins to drain the right child and is like any other.
-/
theorem answers_ofPlan
    {blocks : List Block}
    {last : Block}
    (answers :
      Operator.Answers
        (BroadcastJoin.mk (JoinState.ofPlan plan).beginBuild left right) blocks
        last) :
    Operator.Answers (BroadcastJoin.mk (.ofPlan plan) left right) blocks last := by
  have pulled :
      Operator.pull (BroadcastJoin.mk (JoinState.ofPlan plan) left right) =
        framed ⟨.ofPlan plan, left, right⟩
          (pullRight ⟨.ofPlan plan, left, right⟩) :=
    pull_of_beforeProbing rfl rfl
  have pulledLater := pull_of_building left right (JoinState.holds_ofPlan plan)
  refine Operator.answers_of_same_pull ?_ ?_ answers
  · rw [pulled, pulledLater]
    rfl
  · rw [pulled, pulledLater]
    rfl

/-- A join whose scans find a failure answers what passes and fails with it. -/
theorem answers_ofPlan_of_fault
    {fault : Fault}
    (leftFollows : Operator.Follows left leftScript)
    (rightFollows : Operator.Follows right rightScript)
    (fails : plan.firstFault? rightScript leftScript = some fault) :
    Operator.Answers (BroadcastJoin.mk (.ofPlan plan) left right)
      (plan.streamed rightScript leftScript) (.failed fault) := by
  apply answers_ofPlan
  have fresh := JoinState.holds_ofPlan plan
  cases rightOutcome : (plan.scanRight [] rightScript).fault? with
  | some other =>
      simp only [JoinPlan.firstFault?, rightOutcome, Option.some_or,
        Option.some.injEq] at fails
      subst fails
      rw [JoinPlan.streamed_of_rightFault rightOutcome]
      exact answers_building_of_fault left fresh rightFollows rightOutcome
  | none =>
      simp only [JoinPlan.firstFault?, rightOutcome, Option.none_or] at fails
      rw [JoinPlan.streamed_of_rightSound rightOutcome]
      obtain ⟨turned, ended, holds, later⟩ :=
        answers_building_of_noFault left fresh rightFollows rightOutcome
      rw [List.nil_append] at holds
      apply later
      exact answers_probing_of_fault holds leftFollows fails

/-- A join whose scans find no failure answers every left block, and the sweep. -/
theorem answers_ofPlan_of_noFault
    (leftFollows : Operator.Follows left leftScript)
    (rightFollows : Operator.Follows right rightScript)
    (sound : plan.firstFault? rightScript leftScript = none) :
    ∃ swept : List Row,
      swept.Perm
          (plan.sweptRows (plan.passedRights rightScript)
            (plan.passedLefts rightScript leftScript)) ∧
        Operator.Answers (BroadcastJoin.mk (.ofPlan plan) left right)
          (plan.streamed rightScript leftScript ++ plan.sweepOf swept) .ended := by
  obtain ⟨rightSound, leftSound⟩ := Option.or_eq_none_iff.mp sound
  obtain ⟨turned, ended, holds, later⟩ :=
    answers_building_of_noFault left (JoinState.holds_ofPlan plan) rightFollows
      rightSound
  rw [List.nil_append] at holds
  obtain ⟨swept, unpaired, answers⟩ :=
    answers_probing_of_noFault ended holds leftFollows leftSound
  rw [List.nil_append] at unpaired
  refine ⟨swept, unpaired, answers_ofPlan ?_⟩
  rw [JoinPlan.streamed_of_rightSound rightSound, List.append_assoc]
  exact later _ _ answers

/-- Among admitted rows no failure is found, and everything is answered. -/
theorem answers_ofPlan_of_admits
    {leftBlocks rightBlocks : List Block}
    (leftFollows : Operator.Follows left leftBlocks)
    (rightFollows : Operator.Follows right rightBlocks)
    (leftGoesOn : ∀ block ∈ leftBlocks, block.isTerminal = false)
    (rightGoesOn : ∀ block ∈ rightBlocks, block.isTerminal = false)
    (admits : plan.Admits ↑(rowsOf leftBlocks) ↑(rowsOf rightBlocks)) :
    ∃ swept : List Row,
      swept.Perm (plan.sweptRows (rowsOf rightBlocks) (rowsOf leftBlocks)) ∧
        Operator.Answers (BroadcastJoin.mk (.ofPlan plan) left right)
          (idlesOf rightBlocks ++
            leftBlocks.map (plan.probed (rowsOf rightBlocks)) ++
            plan.sweepOf swept)
          .ended := by
  have sound := JoinPlan.firstFault?_of_admits leftGoesOn rightGoesOn admits
  obtain ⟨swept, unpaired, answers⟩ :=
    answers_ofPlan_of_noFault leftFollows rightFollows sound
  simp only [JoinPlan.passedRights, JoinPlan.passedLefts, JoinPlan.streamed,
    JoinPlan.scanRight_of_admits rightGoesOn admits,
    JoinPlan.scanLeft_of_admits leftGoesOn admits] at unpaired answers
  exact ⟨swept, unpaired, answers⟩

/-- A join fails exactly as the scans of the two scripts say. -/
theorem exists_answer_failed_ofPlan_iff
    (leftFollows : Operator.Follows left leftScript)
    (rightFollows : Operator.Follows right rightScript)
    (cause : Fault) :
    (∃ count,
        Operator.answer (BroadcastJoin.mk (.ofPlan plan) left right) count =
          .failed cause) ↔
      plan.firstFault? rightScript leftScript = some cause := by
  have streamedGoesOn :
      ∀ block ∈ plan.streamed rightScript leftScript, block.isTerminal = false :=
    fun _ member => JoinPlan.isTerminal_of_mem_streamed member
  cases outcome : plan.firstFault? rightScript leftScript with
  | some fault =>
      have answers := answers_ofPlan_of_fault leftFollows rightFollows outcome
      rw [Operator.exists_answer_failed_iff answers streamedGoesOn,
        Block.failed.injEq, Option.some.injEq]
  | none =>
      obtain ⟨swept, _, answers⟩ :=
        answers_ofPlan_of_noFault leftFollows rightFollows outcome
      have allGoOn :
          ∀ block ∈ plan.streamed rightScript leftScript ++ plan.sweepOf swept,
            block.isTerminal = false := by
        intro block member
        rcases List.mem_append.mp member with isStreamed | isSwept
        · exact streamedGoesOn block isStreamed
        · exact JoinPlan.isTerminal_of_mem_sweepOf isSwept
      rw [Operator.exists_answer_failed_iff answers allGoOn]
      constructor
      · intro impossible
        cases impossible
      · intro impossible
        cases impossible

/--
What a join answers to any two scripts.  It fails exactly when the scans of the
scripts find a failure, and with the first one; what is answered in front of the
failure, and what is answered when there is none, is determined by the scripts.
-/
theorem answers_of_scripts
    (accepted : ofSpec left right spec options order = .ok join)
    (leftFollows : Operator.Follows left leftScript)
    (rightFollows : Operator.Follows right rightScript) :
    (∀ cause,
      (∃ count, Operator.answer join count = .failed cause) ↔
        join.state.plan.firstFault? rightScript leftScript = some cause) ∧
    (∀ cause,
      join.state.plan.firstFault? rightScript leftScript = some cause →
        Operator.Answers join (join.state.plan.streamed rightScript leftScript)
          (.failed cause)) ∧
    (join.state.plan.firstFault? rightScript leftScript = none →
      ∃ swept : List Row,
        swept.Perm
            (join.state.plan.sweptRows (join.state.plan.passedRights rightScript)
              (join.state.plan.passedLefts rightScript leftScript)) ∧
          Operator.Answers join
            (join.state.plan.streamed rightScript leftScript ++
              join.state.plan.sweepOf swept)
            .ended) := by
  rw [eq_ofPlan accepted]
  refine ⟨?_, ?_, ?_⟩
  · intro cause
    exact exists_answer_failed_ofPlan_iff leftFollows rightFollows cause
  · intro cause fails
    exact answers_ofPlan_of_fault leftFollows rightFollows fails
  · intro sound
    exact answers_ofPlan_of_noFault leftFollows rightFollows sound

/-- A key with a number. -/
def sampleSchema : Schema := ⟨[⟨"key", .int⟩, ⟨"number", .int⟩]⟩

/-- A join of both sides with a predicate behind the keys. -/
def sampleSpec : JoinSpec :=
  { JoinSpec.equiJoin .full sampleSchema sampleSchema ⟨[0]⟩ ⟨[0]⟩ with
    residuals := ⟨[(Comparison.columns 1 .below 3).toPredicate]⟩ }

/-- The plan of the small join, with a bound on its right rows. -/
def samplePlan : JoinPlan := (JoinPlan.ofSpec sampleSpec ⟨some 5⟩).toOption.get rfl

/-- A small join of both sides over the blocks. -/
def sampleJoin (leftBlocks rightBlocks : List Block) :
    BroadcastJoin Replay Replay :=
  ⟨.ofPlan samplePlan, .ofBlocks leftBlocks, .ofBlocks rightBlocks⟩

/-- The sample description is accepted. -/
theorem ofSpec_sampleSpec (leftBlocks rightBlocks : List Block) :
    ofSpec (Replay.ofBlocks leftBlocks) (Replay.ofBlocks rightBlocks) sampleSpec
        ⟨some 5⟩ =
      .ok (sampleJoin leftBlocks rightBlocks) := rfl

/-- Left blocks with an idle one and an empty one, and a null as a key. -/
def sampleLefts : List Block :=
  [.idle, .ofRows [[.int 1, .int 5], [.null, .int 1]] sampleSchema,
    .ofRows [] sampleSchema, .ofRows [[.int 2, .null]] sampleSchema]

/-- Right blocks of which three rows have the same key. -/
def sampleRights : List Block :=
  [.ofRows [[.int 1, .int 7], [.int 1, .int 3], [.null, .int 2]] sampleSchema,
    .idle, .ofRows [[.int 1, .int 9], [.int 2, .int 1]] sampleSchema]

/-- A comparison that fails behind a pair of the same block takes the pair back. -/
theorem answers_of_scripts_sample :
    let unordered : Block :=
      .ofRows [[.int 1, .int 8], [.int 2, .boolean true]] sampleSchema
    let fault := Fault.predicateFailed
      ("cannot compare " ++ (Value.boolean true).text ++ " with " ++
        (Value.int 1).text)
    let join :=
      sampleJoin (sampleLefts ++ [unordered, .failed (.inputFailed "later")])
        (sampleRights ++ [.ended, .failed (.inputFailed "beyond the end")])
    Operator.Answers join
      [.idle, .idle,
        .ofRows
          [[.int 1, .int 5, .int 1, .int 7], [.int 1, .int 5, .int 1, .int 9],
            [.null, .int 1, .null, .int 2]]
          samplePlan.resultSchema,
        .ofRows [] samplePlan.resultSchema,
        .ofRows [[.int 2, .null, .null, .null]] samplePlan.resultSchema]
      (.failed fault) :=
  (answers_of_scripts
    (ofSpec_sampleSpec _ _)
    (Replay.follows_queued _)
    (Replay.follows_queued _)).2.1 _ rfl

/--
A join whose children hand out admitted rows, in any batches, never fails.  It
answers each left block by the nested loop over all right rows; a kind with a sweep
hands out the unpaired right rows in one more block; then the stream has ended.
-/
theorem answers_nestedLoop
    {leftBlocks rightBlocks : List Block}
    (accepted : ofSpec left right spec options order = .ok join)
    (leftFollows : Operator.Follows left leftBlocks)
    (rightFollows : Operator.Follows right rightBlocks)
    (leftGoesOn : ∀ block ∈ leftBlocks, block.isTerminal = false)
    (rightGoesOn : ∀ block ∈ rightBlocks, block.isTerminal = false)
    (admits : join.state.plan.Admits ↑(rowsOf leftBlocks) ↑(rowsOf rightBlocks)) :
    (∀ count cause, Operator.answer join count ≠ .failed cause) ∧
    ∃ swept : List Row,
      swept.Perm
          (join.state.plan.sweptRows (rowsOf rightBlocks) (rowsOf leftBlocks)) ∧
        Operator.Answers join
          (idlesOf rightBlocks ++
            leftBlocks.map (join.state.plan.probed (rowsOf rightBlocks)) ++
            join.state.plan.sweepOf swept)
          .ended := by
  rw [eq_ofPlan accepted]
  refine ⟨?_, ?_⟩
  · intro count cause failed
    have found :=
      (exists_answer_failed_ofPlan_iff leftFollows rightFollows cause).mp
        ⟨count, failed⟩
    rw [JoinPlan.firstFault?_of_admits leftGoesOn rightGoesOn admits] at found
    cases found
  · exact
      answers_ofPlan_of_admits leftFollows rightFollows leftGoesOn rightGoesOn
        admits

/-- The sample rows are admitted. -/
theorem admits_sample :
    samplePlan.Admits ↑(rowsOf sampleLefts) ↑(rowsOf sampleRights) where
  leftWidths := by decide
  rightWidths := by decide
  withinLimit := by
    rintro limit ⟨⟩
    decide
  evaluates := by
    intro _ _
    decide

/-- Two right rows are never paired: a number is too small, or the bound is null. -/
theorem answers_nestedLoop_sample :
    ∃ swept : List Row,
      swept.Perm [[.null, .null, .int 1, .int 3], [.null, .null, .int 2, .int 1]] ∧
        Operator.Answers (sampleJoin sampleLefts sampleRights)
          [.idle, .idle,
            .ofRows
              [[.int 1, .int 5, .int 1, .int 7], [.int 1, .int 5, .int 1, .int 9],
                [.null, .int 1, .null, .int 2]]
              samplePlan.resultSchema,
            .ofRows [] samplePlan.resultSchema,
            .ofRows [[.int 2, .null, .null, .null]] samplePlan.resultSchema,
            .ofRows swept samplePlan.resultSchema]
          .ended :=
  (answers_nestedLoop
    (ofSpec_sampleSpec sampleLefts sampleRights)
    (Replay.follows_queued _)
    (Replay.follows_queued _)
    (by decide)
    (by decide)
    admits_sample).2

end BroadcastJoin

end StreamJoin
