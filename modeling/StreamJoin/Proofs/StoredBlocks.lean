import Mathlib.Data.List.Induction
import StreamJoin.Proofs.DeclaredWidths
import StreamJoin.Proofs.JoinLifecycle
import StreamJoin.Proofs.RowLimit
import StreamJoin.Proofs.TableGroups

namespace StreamJoin

/-!
# The table of the stored right blocks

A join that stored right blocks one after another holds a table that groups their
rows by the right key columns.  How the rows were divided into blocks does not show,
and neither does it show in which pulls the blocks were stored: a join that was
suspended in the middle of building stands where storing the blocks at once leads
to.

`JoinRecord.Filled` says so of a run.  The right blocks that a join has received
were all taken, except for the last one if it ended the building: it was the end, a
failure, or data that could not be stored.
-/

/-- The rows of the data blocks of a list, block by block. -/
def batchesOf (blocks : List Block) : List (List Row) :=
  (dataOf blocks).map Block.rows

/-- The batches of two lists of blocks are those of one and of the other. -/
theorem batchesOf_append (first later : List Block) :
    batchesOf (first ++ later) = batchesOf first ++ batchesOf later := by
  rw [batchesOf, dataOf_append, List.map_append]
  rfl

/-- Put together, the batches are all rows. -/
theorem flatten_batchesOf (blocks : List Block) :
    (batchesOf blocks).flatten = rowsOf blocks := by
  rw [← rowsOf_dataOf, batchesOf, rowsOf, List.flatMap_def]

/--
A fresh join that stored right blocks, given by their rows, or the first fault.
-/
def JoinPlan.storeAll (plan : JoinPlan) (batches : List (List Row)) :
    Except Fault JoinState :=
  batches.foldlM JoinState.store (.ofPlan plan)

section StoringAll

variable {plan : JoinPlan} {batches : List (List Row)} {rows : List Row}
  {stored : JoinState}

/-- One more batch is stored behind the others. -/
theorem JoinPlan.storeAll_concat :
    plan.storeAll (batches ++ [rows]) =
      (plan.storeAll batches).bind fun before => before.store rows := by
  simp only [storeAll, List.foldlM_append, List.foldlM_cons, List.foldlM_nil,
    bind_pure]
  rfl

/-- The state before the last block, and what storing it added. -/
theorem exists_of_storeAll_concat
    (accepted : plan.storeAll (batches ++ [rows]) = .ok stored) :
    ∃ before,
      plan.storeAll batches = .ok before ∧ before.store rows = .ok stored := by
  rw [JoinPlan.storeAll_concat] at accepted
  cases outcome : plan.storeAll batches with
  | error fault =>
      rw [outcome] at accepted
      cases accepted
  | ok before =>
      rw [outcome] at accepted
      exact ⟨before, rfl, accepted⟩

/--
Storing blocks fills the table with their rows in order, all of them of their
declared width.
-/
theorem filled_of_storeAll (accepted : plan.storeAll batches = .ok stored) :
    stored.plan = plan ∧ stored.table = plan.tableOf batches.flatten ∧
      ∀ row ∈ batches.flatten, row.length = plan.rightWidth := by
  induction batches using List.reverseRecOn generalizing stored with
  | nil =>
      cases accepted
      exact ⟨rfl, rfl, nofun⟩
  | append_singleton batches rows inductionHypothesis =>
      obtain ⟨before, acceptedBefore, storing⟩ := exists_of_storeAll_concat accepted
      obtain ⟨rfl, table_eq, widths⟩ := inductionHypothesis acceptedBefore
      obtain ⟨checked, rfl⟩ := JoinState.eq_of_store storing
      refine ⟨rfl, ?_, ?_⟩
      · rw [List.flatten_concat, table_eq]
        exact Table.insertAll_ofRows batches.flatten rows
      · rw [List.flatten_concat, List.forall_mem_append]
        exact ⟨widths, length_of_checkWidths checked⟩

/--
The table of stored blocks groups their rows, however these were divided into
blocks.
-/
theorem groups_of_storeAll (accepted : plan.storeAll batches = .ok stored) :
    stored.table.Groups plan.rightKeys batches.flatten := by
  obtain ⟨_, table_eq, widths⟩ := filled_of_storeAll accepted
  rw [table_eq]
  apply Table.groups_ofRows
  intro row member
  have readable : plan.Readable (.right, row) :=
    JoinPlan.readable_of_width (widths row member)
  exact readable.present

end StoringAll

namespace JoinState

variable {state : JoinState} {rows : List Row}

/--
A block that ends the building of a table: the end, a failure, or data that is
refused.
-/
def Declines (state : JoinState) (block : Block) : Prop :=
  block.isTerminal = true ∨
    ∃ batch fault, block = .data batch ∧ state.store batch.rows = .error fault

/--
Whether a block can be stored does not depend on whether the building has begun.
-/
theorem store_beginBuild :
    state.beginBuild.store rows = (state.store rows).map beginBuild := by
  unfold store
  cases exceeded : state.exceededLimit? (state.tableRows + rows.length) with
  | some limit =>
      have begun :
          state.beginBuild.exceededLimit?
              (state.beginBuild.tableRows + rows.length) =
            some limit := exceeded
      rw [begun]
      rfl
  | none =>
      have begun :
          state.beginBuild.exceededLimit?
              (state.beginBuild.tableRows + rows.length) =
            none := exceeded
      have samePlan : state.beginBuild.plan = state.plan := rfl
      rw [begun, samePlan]
      cases checkWidths .right state.plan.rightWidth rows <;> rfl

end JoinState

namespace JoinRecord

/--
Of a join the right blocks that it took, the block that ended its building, if there
was one, and where storing the data of the blocks taken leads to.  As long as the
join drains its right child it stands there, and its table is the one from there as
long as it is open.
-/
structure Filled
    (record : JoinRecord)
    (taken : List Block)
    (last? : Option Block)
    (stored : JoinState) : Prop where
  rights_eq : record.rights = taken ++ last?.toList
  goesOn : ∀ block ∈ taken, block.isTerminal = false
  stores : record.state.plan.storeAll (batchesOf taken) = .ok stored
  declines : ∀ last, last? = some last → stored.Declines last
  draining_iff : record.state.phase.isBeforeProbing = true ↔ last? = none
  beginBuild_eq :
    record.state.closed = false → last? = none →
      record.state.beginBuild = stored.beginBuild
  table_eq : record.state.closed = false → record.state.table = stored.table

namespace Filled

variable {state stored : JoinState} {rights lefts answers : List Block}
  {taken : List Block}
variable {last? : Option Block} {more : List Block}

/-- A join that was never pulled has taken no block. -/
theorem ofPlan (plan : JoinPlan) :
    Filled ⟨.ofPlan plan, [], [], []⟩ [] none (.ofPlan plan) where
  rights_eq := rfl
  goesOn := nofun
  stores := rfl
  declines := nofun
  draining_iff := iff_of_true rfl rfl
  beginBuild_eq _ _ := rfl
  table_eq _ := rfl

/--
While it drains its right child a join takes a block that can be stored or says
nothing.
-/
theorem take
    {next reached : JoinState}
    {block : Block}
    (filled : Filled ⟨state, rights, lefts, answers⟩ taken none stored)
    (goesOn : block.isTerminal = false)
    (plan_eq : next.plan = state.plan)
    (draining : next.phase.isBeforeProbing = true)
    (stores : state.plan.storeAll (batchesOf (taken ++ [block])) = .ok reached)
    (beginBuild_eq : next.beginBuild = reached.beginBuild) :
    Filled ⟨next, rights ++ [block], lefts, more⟩ (taken ++ [block]) none
      reached where
  rights_eq := by
    have rights_eq : rights = taken ++ [] := filled.rights_eq
    simp [rights_eq]
  goesOn := List.forall_mem_append.mpr ⟨filled.goesOn, by simpa using goesOn⟩
  stores := plan_eq.symm ▸ stores
  declines := nofun
  draining_iff := iff_of_true draining rfl
  beginBuild_eq _ _ := beginBuild_eq
  table_eq _ := by
    have sameTable : next.beginBuild.table = reached.beginBuild.table :=
      congrArg JoinState.table beginBuild_eq
    exact sameTable

/-- The block that ends the building leaves the table as it is. -/
theorem decline
    {next : JoinState}
    {block : Block}
    (filled : Filled ⟨state, rights, lefts, answers⟩ taken none stored)
    (opened : state.closed = false)
    (declines : stored.Declines block)
    (plan_eq : next.plan = state.plan)
    (table_eq : next.table = state.table)
    (pastBuilding : next.phase.isBeforeProbing = false) :
    Filled ⟨next, rights ++ [block], lefts, more⟩ taken (some block) stored where
  rights_eq := by
    have rights_eq : rights = taken ++ [] := filled.rights_eq
    simp [rights_eq]
  goesOn := filled.goesOn
  stores := plan_eq.symm ▸ filled.stores
  declines _ isLast := Option.some.inj isLast ▸ declines
  draining_iff := by simp [pastBuilding]
  beginBuild_eq _ := nofun
  table_eq _ := table_eq.trans (filled.table_eq opened)

/-- A right block is taken, or it ends the building. -/
theorem receiveRight
    (filled : Filled ⟨state, rights, lefts, answers⟩ taken last? stored)
    (opened : state.closed = false)
    (beforeProbing : state.phase.isBeforeProbing = true)
    (block : Block) :
    ∃ taken last? stored,
      Filled
        ⟨(state.beginBuild.receiveRight block).state, rights ++ [block], lefts,
          more⟩
        taken last? stored := by
  obtain rfl : last? = none := filled.draining_iff.mp beforeProbing
  have stores : state.plan.storeAll (batchesOf taken) = .ok stored := filled.stores
  have standing : state.beginBuild = stored.beginBuild :=
    filled.beginBuild_eq opened rfl
  cases block with
  | idle =>
      have noData : batchesOf (taken ++ [.idle]) = batchesOf taken := by
        rw [batchesOf_append]
        exact List.append_nil _
      exact ⟨_, _, _, filled.take rfl rfl rfl (noData.symm ▸ stores) standing⟩
  | ended => exact ⟨_, _, _, filled.decline opened (.inl rfl) rfl rfl rfl⟩
  | failed cause => exact ⟨_, _, _, filled.decline opened (.inl rfl) rfl rfl rfl⟩
  | data batch =>
      have storing : state.beginBuild.store batch.rows =
          (stored.store batch.rows).map JoinState.beginBuild := by
        rw [standing, JoinState.store_beginBuild]
      cases outcome : stored.store batch.rows with
      | error fault =>
          rw [outcome] at storing
          simp only [JoinState.receiveRight, storing, Except.map]
          exact
            ⟨_, _, _,
              filled.decline opened (.inr ⟨batch, fault, rfl, outcome⟩) rfl rfl rfl⟩
      | ok reached =>
          rw [outcome] at storing
          have storesMore :
              state.plan.storeAll (batchesOf (taken ++ [.data batch])) =
                .ok reached := by
            have oneMore : batchesOf [.data batch] = [batch.rows] := rfl
            rw [batchesOf_append, oneMore, JoinPlan.storeAll_concat, stores]
            exact outcome
          have plan_eq : reached.plan = state.plan :=
            (JoinState.samePosition_store outcome).1.trans
              (congrArg JoinState.plan standing).symm
          simp only [JoinState.receiveRight, storing, Except.map]
          exact ⟨_, _, _, filled.take rfl plan_eq rfl storesMore rfl⟩

/-- A left block leaves the table as it is, also if it fails the join. -/
theorem receiveLeft
    (filled : Filled ⟨state, rights, lefts, answers⟩ taken last? stored)
    (opened : state.closed = false)
    (probing : state.phase = .probing)
    (block : Block) :
    Filled ⟨(state.receiveLeft block).state, rights, lefts ++ [block], more⟩
      taken last? stored := by
  have ended : last? ≠ none := by
    intro draining
    have beforeProbing : state.phase.isBeforeProbing = true :=
      filled.draining_iff.mpr draining
    rw [probing] at beforeProbing
    cases beforeProbing
  have pastBuilding :
      (state.receiveLeft block).state.phase.isBeforeProbing = false := by
    rcases JoinState.receiveLeft_cases probing with
      ⟨goesOn | done, _⟩ | ⟨cause, failed, _⟩
    · rw [goesOn]
      rfl
    · rw [done]
      rfl
    · rw [failed]
      rfl
  have plan_eq : (state.receiveLeft block).state.plan = state.plan :=
    JoinState.plan_receiveLeft
  have table_eq : (state.receiveLeft block).state.table = state.table :=
    JoinState.table_receiveLeft
  exact {
    rights_eq := filled.rights_eq
    goesOn := filled.goesOn
    stores := plan_eq.symm ▸ filled.stores
    declines := filled.declines
    draining_iff := by simp [pastBuilding, ended]
    beginBuild_eq := fun _ draining => absurd draining ended
    table_eq := fun _ => table_eq.trans (filled.table_eq opened)
  }

/-- A closed join has taken what it had taken. -/
theorem release
    (filled : Filled ⟨state, rights, lefts, answers⟩ taken last? stored) :
    Filled ⟨state.release, rights, lefts, answers⟩ taken last? stored where
  rights_eq := filled.rights_eq
  goesOn := filled.goesOn
  stores := filled.stores
  declines := filled.declines
  draining_iff := filled.draining_iff
  beginBuild_eq := nofun
  table_eq := nofun

end Filled

/-- Every run has taken its right blocks up to the one that ended the building. -/
theorem maintained_filled :
    Maintained fun record =>
      ∃ taken last? stored, record.Filled taken last? stored where
  receivesRight block opened beforeProbing holds := by
    obtain ⟨taken, last?, stored, filled⟩ := holds
    exact filled.receiveRight opened beforeProbing block
  receivesLeft block opened probing holds := by
    obtain ⟨taken, last?, stored, filled⟩ := holds
    exact ⟨taken, last?, stored, filled.receiveLeft opened probing block⟩
  repeatsLast _ holds := by
    obtain ⟨taken, last?, stored, filled⟩ := holds
    exact ⟨taken, last?, stored, { filled with }⟩
  released holds := by
    obtain ⟨taken, last?, stored, filled⟩ := holds
    exact ⟨taken, last?, stored, filled.release⟩

end JoinRecord

namespace BroadcastJoin

variable {Left Right : Type} [Operator Left] [Drainable Right]

/--
The table of an accepted join groups the right rows that it stored by their key
columns, in the order in which they arrived.  This is so for every sequence of
blocks that can be stored, and in every run: whatever is asked of the join, it has
taken all right blocks that it received, except for the last one if that ended the
building, and as long as it is open its table groups the rows of the blocks taken.
-/
theorem table_groups_stored
    {left : Left}
    {right : Right}
    {spec : JoinSpec}
    {options : JoinOptions}
    {order : BucketOrder}
    {join : BroadcastJoin Left Right}
    (accepted : ofSpec left right spec options order = .ok join) :
    spec.rightKeys = some join.state.plan.rightKeys ∧
      (∀ batches stored,
        join.state.plan.storeAll batches = .ok stored →
          stored.table.Groups join.state.plan.rightKeys batches.flatten) ∧
      ∀ calls,
        let run := join.recordAfter calls
        run.state = (Operator.afterCalls join calls).state ∧
          (∃ count, run.rights = Operator.firstAnswers count right) ∧
          ∃ taken last? stored,
            run.Filled taken last? stored ∧
              (run.state.closed = false →
                run.state.table.Groups join.state.plan.rightKeys
                  (rowsOf taken)) := by
  have describes : join.state.plan.Describes spec options order := by
    obtain ⟨plan, checked, rfl⟩ := exists_plan_of_ofSpec accepted
    exact JoinPlan.ofSpec_eq_ok_iff.mp checked
  refine ⟨describes.rightKeys_eq, fun _ _ => groups_of_storeAll, fun calls => ?_⟩
  intro run
  have sameState : run.state = (Operator.afterCalls join calls).state :=
    state_recordAfter join calls
  have samePlan : run.state.plan = join.state.plan := by
    rw [sameState, plan_afterCalls]
  obtain ⟨taken, last?, stored, filled⟩ :=
    maintained_recordAfter JoinRecord.maintained_filled accepted
      ⟨[], none, _, .ofPlan join.state.plan⟩ calls
  refine
    ⟨sameState, exists_rights_eq accepted calls, taken, last?, stored, filled,
      fun opened => ?_⟩
  rw [filled.table_eq opened, ← samePlan, ← flatten_batchesOf]
  exact groups_of_storeAll filled.stores

/-- A key that may be no number, with a number. -/
def groupedSchema : Schema := ⟨[⟨"key", .double⟩, ⟨"number", .int⟩]⟩

/-- A join that names its key column twice. -/
def groupedSpec : JoinSpec :=
  .equiJoin .right groupedSchema groupedSchema ⟨[0, 0]⟩ ⟨[0, 0]⟩

/-- Right rows with a null and two words that are no number as their keys. -/
def groupedBlocks : List Block :=
  [.ofRows [[.null, .int 1], [.double 0x7ff8000000000000, .int 2]] groupedSchema,
    .idle,
    .ofRows [[.double 0x7ff8000000000001, .int 3], [.null, .int 4], [.null, .int 1]]
      groupedSchema]

/-- A small join that fails at a block of another width behind these blocks. -/
def groupedJoin : BroadcastJoin Replay Replay :=
  ⟨.ofPlan ((JoinPlan.ofSpec groupedSpec .default).toOption.get rfl), .ofBlocks [],
    .ofBlocks (groupedBlocks ++ [.ofRows [[.null]] groupedSchema])⟩

/--
Nulls share a bucket, the two words do not, and a block of a wrong width leaves the
table as it was.
-/
theorem table_groups_stored_sample :
    let reached := Operator.afterCalls groupedJoin [.pull, .pull]
    reached.state.phase = .failed (.wrongRowWidth .right 2 1) ∧
      reached.state.table.Groups ⟨[0, 0]⟩ (rowsOf groupedBlocks) ∧
      reached.state.table.toList =
        [(⟨[.null, .null]⟩, [[.null, .int 1], [.null, .int 4], [.null, .int 1]]),
          (⟨[.double 0x7ff8000000000000, .double 0x7ff8000000000000]⟩,
            [[.double 0x7ff8000000000000, .int 2]]),
          (⟨[.double 0x7ff8000000000001, .double 0x7ff8000000000001]⟩,
            [[.double 0x7ff8000000000001, .int 3]])] := by
  intro reached
  have accepted :
      ofSpec groupedJoin.left groupedJoin.right groupedSpec .default =
        .ok groupedJoin := rfl
  obtain ⟨_, _, runs⟩ := table_groups_stored accepted
  obtain ⟨sameState, _, taken, last?, stored, filled, groups⟩ := runs [.pull, .pull]
  have received :
      (groupedJoin.recordAfter [.pull, .pull]).rights =
        groupedBlocks ++ [.ofRows [[.null]] groupedSchema] := by decide
  have groups := groups rfl
  refine ⟨by decide, ?_, by decide⟩
  cases last? with
  | none =>
      have draining := filled.draining_iff.mpr rfl
      cases draining
  | some last =>
      obtain ⟨rfl, _⟩ :=
        List.append_singleton_inj.mp (received.symm.trans filled.rights_eq)
      exact sameState ▸ groups

end BroadcastJoin

end StreamJoin
