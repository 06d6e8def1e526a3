import Mathlib.Data.List.Dedup
import StreamJoin.Proofs.ScriptedJoin

namespace StreamJoin

/-!
# The statistics of a history

What the children of a join answered, and what it answered itself, determines its
statistics.  `JoinPlan.tallyOf` computes them from these three lists and knows
nothing of tables, marks and phases: the scans of the two inputs find the accepted
blocks, and a data block that answers no left block is the sweep.
-/

/-- The data blocks of a list. -/
def dataOf (blocks : List Block) : List Block := blocks.filter Block.isData

/-- The data blocks of two lists are those of one and of the other. -/
theorem dataOf_append (first later : List Block) :
    dataOf (first ++ later) = dataOf first ++ dataOf later :=
  List.filter_append ..

/-- The rows of one block in a list are its rows. -/
theorem rowsOf_singleton (block : Block) : rowsOf [block] = block.rows :=
  List.append_nil block.rows

/-- All rows are in the data blocks. -/
theorem rowsOf_dataOf (blocks : List Block) :
    rowsOf (dataOf blocks) = rowsOf blocks := by
  induction blocks with
  | nil => rfl
  | cons block rest inductionHypothesis =>
      rw [rowsOf_cons, ← inductionHypothesis]
      cases block with
      | data batch => exact rowsOf_cons _ _
      | idle => rfl
      | ended => rfl
      | failed cause => rfl

/-- A block that does not end the stream is not its end. -/
theorem Block.ended_ne_of_goesOn {block : Block} (goesOn : block.isEnd = false) :
    .ended ≠ block := by
  rintro rfl
  cases goesOn

section Scanning

variable {faultOf : List Row → Block → Option Fault} {before : List Row}
variable {blocks : List Block} {block : Block}

/-- If a script passes, its first block passes, and so do the others behind it. -/
theorem passes_of_cons
    {rest : List Block}
    (passes : scan faultOf before (block :: rest) = ⟨block :: rest, none⟩) :
    block.isEnd = false ∧ faultOf before block = none ∧
      scan faultOf (before ++ block.rows) rest = ⟨rest, none⟩ := by
  cases isEnd : block.isEnd with
  | true => cases block <;> simp [scan, Block.isEnd] at passes isEnd
  | false =>
      cases outcome : faultOf before block with
      | some fault =>
          rw [scan_cons_of_fault isEnd outcome] at passes
          cases passes
      | none =>
          rw [scan_cons_of_noFault isEnd outcome] at passes
          cases later : scan faultOf (before ++ block.rows) rest with
          | mk passed fault? =>
              rw [later] at passes
              cases passes
              exact ⟨rfl, rfl, rfl⟩

/-- If a script passes, each of its blocks passes behind the rows before it. -/
theorem passes_of_append
    {earlier later : List Block}
    (passes :
      scan faultOf before (earlier ++ block :: later) =
        ⟨earlier ++ block :: later, none⟩) :
    block.isEnd = false ∧ faultOf (before ++ rowsOf earlier) block = none := by
  induction earlier generalizing before with
  | nil =>
      obtain ⟨goesOn, noFault, _⟩ := passes_of_cons passes
      exact ⟨goesOn, (List.append_nil before).symm ▸ noFault⟩
  | cons first rest inductionHypothesis =>
      obtain ⟨_, _, laterPasses⟩ := passes_of_cons passes
      rw [rowsOf_cons, ← List.append_assoc]
      exact inductionHypothesis laterPasses

/-- The end of the stream is not among blocks that pass. -/
theorem ended_notMem_of_passes
    (failing : ∀ rows cause, faultOf rows (.failed cause) = some cause)
    (passes : scan faultOf before blocks = ⟨blocks, none⟩) :
    .ended ∉ blocks := by
  intro member
  have inPassed : Block.ended ∈ (scan faultOf before blocks).passed := by
    rwa [passes]
  cases isTerminal_of_mem_passed failing inPassed

/-- Behind blocks that pass, a scan goes on with the rows before it. -/
theorem scan_append
    (passes : scan faultOf before blocks = ⟨blocks, none⟩)
    (later : List Block) :
    scan faultOf before (blocks ++ later) =
      ⟨blocks ++ (scan faultOf (before ++ rowsOf blocks) later).passed,
        (scan faultOf (before ++ rowsOf blocks) later).fault?⟩ := by
  induction blocks generalizing before with
  | nil => simp [rowsOf]
  | cons block rest inductionHypothesis =>
      cases isEnd : block.isEnd with
      | true =>
          cases block <;> simp [scan, Block.isEnd] at passes isEnd
      | false =>
          cases outcome : faultOf before block with
          | some fault =>
              rw [scan_cons_of_fault isEnd outcome] at passes
              cases passes
          | none =>
              rw [scan_cons_of_noFault isEnd outcome] at passes
              rw [List.cons_append, scan_cons_of_noFault isEnd outcome]
              cases restPasses : scan faultOf (before ++ block.rows) rest with
              | mk passed fault? =>
                  rw [restPasses] at passes
                  cases passes
                  rw [inductionHypothesis restPasses, rowsOf_cons,
                    List.append_assoc]
                  rfl

/-- A block without a fault passes a scan behind blocks that passed. -/
theorem scan_append_of_passes
    (passes : scan faultOf before blocks = ⟨blocks, none⟩)
    (goesOn : block.isEnd = false)
    (noFault : faultOf (before ++ rowsOf blocks) block = none) :
    scan faultOf before (blocks ++ [block]) = ⟨blocks ++ [block], none⟩ := by
  rw [scan_append passes, scan_cons_of_noFault goesOn noFault]
  rfl

end Scanning

namespace Table

/-- A table has as many keys as its rows have different ones. -/
theorem keyCount_ofRows (keyOf : Row → Key) (rows : List Row) :
    (ofRows keyOf rows).keyCount = (rows.map keyOf).dedup.length := by
  have listed :
      ((ofRows keyOf rows).toList.map Prod.fst).Perm (rows.map keyOf).dedup := by
    rw [List.perm_ext_iff_of_nodup (nodup_keys_toList _) (List.nodup_dedup _)]
    intro key
    rw [mem_keys_toList, contains_ofRows, List.mem_dedup]
    simp
  rw [← listed.length_eq]
  simp [keyCount, toList]

end Table

namespace JoinPlan

/-- The blocks of the right child that a join accepts. -/
def acceptedRights (plan : JoinPlan) (rights : List Block) : List Block :=
  (plan.scanRight [] rights).passed

/--
The blocks of the left child that a join accepts, against the accepted right rows.
-/
def acceptedLefts (plan : JoinPlan) (rights lefts : List Block) : List Block :=
  (plan.scanLeft (rowsOf (plan.acceptedRights rights)) [] lefts).passed

/-- Among the answers of a join, the data blocks that answer no left block. -/
def sweeps (plan : JoinPlan) (rights lefts answers : List Block) : List Block :=
  (dataOf answers).drop (dataOf (plan.acceptedLefts rights lefts)).length

/--
The statistics of a join whose children answered given blocks, and which answered
some.
-/
def tallyOf (plan : JoinPlan) (rights lefts answers : List Block) : JoinTally where
  rightBlocks := (dataOf (plan.acceptedRights rights)).length
  rightRows := (rowsOf (plan.acceptedRights rights)).length
  distinctKeys :=
    if .ended ∈ rights then
      ((rowsOf (plan.acceptedRights rights)).map plan.rightKeys.key).dedup.length
    else
      0
  leftBlocks := (dataOf (plan.acceptedLefts rights lefts)).length
  leftRows := (rowsOf (plan.acceptedLefts rights lefts)).length
  emittedRows := (rowsOf answers).length
  unmatchedRightRows := (rowsOf (plan.sweeps rights lefts answers)).length

end JoinPlan

/-- A join with what its children and itself answered. -/
structure JoinRecord where
  state : JoinState
  rights : List Block
  lefts : List Block
  answers : List Block

namespace JoinRecord

/--
A join whose statistics are those of its history.  Its data answers are one for each
accepted left block and, once the left child has ended, one for the sweep if there
is any.
-/
structure Truthful (record : JoinRecord) : Prop where
  stats_eq :
    record.state.stats =
      record.state.plan.tallyOf record.rights record.lefts record.answers
  length_answers :
    (dataOf record.answers).length =
      (dataOf (record.state.plan.acceptedLefts record.rights record.lefts)).length +
        if record.state.plan.kind.sweepsRight = true ∧ .ended ∈ record.lefts then 1
        else 0

end JoinRecord

namespace JoinPlan

variable {plan : JoinPlan} {rights : List Block}

/-- One more right block is accepted if it passes behind the others. -/
theorem acceptedRights_append
    (passes : plan.scanRight [] rights = ⟨rights, none⟩)
    (block : Block) :
    plan.acceptedRights (rights ++ [block]) =
      rights ++ (plan.scanRight (rowsOf rights) [block]).passed := by
  have appended := scan_append passes [block]
  rw [List.nil_append] at appended
  exact congrArg Scan.passed appended

/-- Right blocks that pass are accepted. -/
theorem acceptedRights_of_passes
    (passes : plan.scanRight [] rights = ⟨rights, none⟩) :
    plan.acceptedRights rights = rights :=
  congrArg Scan.passed passes

/--
What one more right block adds to the tally of a join that accepted all before it.
-/
theorem tallyOf_rights_append
    (passes : plan.scanRight [] rights = ⟨rights, none⟩)
    {block : Block}
    (goesOn : block.isEnd = false) :
    let accepted := (plan.scanRight (rowsOf rights) [block]).passed
    plan.tallyOf (rights ++ [block]) [] [] =
      { plan.tallyOf rights [] [] with
        rightBlocks :=
          (plan.tallyOf rights [] []).rightBlocks + (dataOf accepted).length
        rightRows :=
          (plan.tallyOf rights [] []).rightRows + (rowsOf accepted).length } := by
  have notEnd := Block.ended_ne_of_goesOn goesOn
  have notEnded := ended_notMem_of_passes (fun _ _ => rfl) passes
  simp only [tallyOf, acceptedRights_append passes, acceptedRights_of_passes passes,
    List.mem_append, List.mem_singleton, notEnded, notEnd, or_false, if_false,
    dataOf_append, rowsOf_append, List.length_append]
  rfl

/-- The end of the right child adds the number of different keys. -/
theorem tallyOf_rights_ended (passes : plan.scanRight [] rights = ⟨rights, none⟩) :
    plan.tallyOf (rights ++ [.ended]) [] [] =
      { plan.tallyOf rights [] [] with
        distinctKeys :=
          ((rowsOf rights).map plan.rightKeys.key).dedup.length } := by
  have accepted : (plan.scanRight (rowsOf rights) [.ended]).passed = [] := rfl
  simp only [tallyOf, acceptedRights_append passes, acceptedRights_of_passes passes,
    accepted, List.append_nil, List.mem_append, List.mem_singleton, or_true,
    if_true]
  rfl

end JoinPlan

namespace JoinRecord

variable {state : JoinState} {rights lefts answers : List Block} {block : Block}

/-- Before any left block was pulled, a join has answered no data. -/
theorem truthful_building_iff :
    Truthful ⟨state, rights, [], answers⟩ ↔
      state.stats = state.plan.tallyOf rights [] [] ∧ dataOf answers = [] := by
  have noLefts : state.plan.acceptedLefts rights [] = [] := rfl
  have tally_eq (noData : dataOf answers = []) :
      state.plan.tallyOf rights [] answers = state.plan.tallyOf rights [] [] := by
    simp only [JoinPlan.tallyOf, JoinPlan.sweeps, noLefts, ← rowsOf_dataOf answers,
      noData]
    rfl
  constructor
  · rintro ⟨stats_eq, length_answers⟩
    have noData : dataOf answers = [] := by
      simp only [noLefts, List.not_mem_nil, and_false, if_false] at length_answers
      exact List.eq_nil_of_length_eq_zero length_answers
    exact ⟨stats_eq.trans (tally_eq noData), noData⟩
  · rintro ⟨stats_eq, noData⟩
    refine ⟨stats_eq.trans (tally_eq noData).symm, ?_⟩
    simp only [noData, noLefts, List.not_mem_nil, and_false, if_false]
    rfl

/-- A terminal answer carries no rows. -/
theorem Truthful.append_terminal
    (truthful : Truthful ⟨state, rights, lefts, answers⟩)
    (terminal : block.isTerminal = true) :
    Truthful ⟨state, rights, lefts, answers ++ [block]⟩ := by
  have noData : dataOf [block] = [] := by
    cases block with
    | data batch => cases terminal
    | _ => rfl
  have noRows : rowsOf [block] = [] := by
    rw [← rowsOf_dataOf, noData]
    rfl
  constructor
  · refine truthful.stats_eq.trans ?_
    simp only [JoinPlan.tallyOf, JoinPlan.sweeps, dataOf_append, rowsOf_append,
      noData, noRows, List.append_nil]
  · rw [dataOf_append, noData, List.append_nil]
    exact truthful.length_answers

end JoinRecord

end StreamJoin
