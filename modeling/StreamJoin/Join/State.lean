import StreamJoin.Event
import StreamJoin.Join.Probe

namespace StreamJoin

/-!
# The state of a join

What a join keeps between two pulls, apart from its children: the plan, the
broadcast table with its marks, the phase, whether it was closed, and statistics.
The steps that concern no child are here: storing a right block, completing the
table, probing a left block, the final sweep, failing, and releasing the table.

A right block is stored whole or not at all.  A left block is checked whole before
any of its rows is probed, and its rows count only when all of them were probed.
-/

/--
The statistics of one join.  How long its table took to build is not among them: no
step reads a clock.
-/
structure JoinTally where
  rightBlocks : Nat
  rightRows : Nat
  distinctKeys : Nat
  leftBlocks : Nat
  leftRows : Nat
  emittedRows : Nat
  unmatchedRightRows : Nat
  deriving Repr, DecidableEq

/-- The statistics of a join that was never pulled. -/
def JoinTally.zero : JoinTally := ⟨0, 0, 0, 0, 0, 0, 0⟩

/-- The state of a join without its children. -/
structure JoinState where
  plan : JoinPlan
  table : Table
  marks? : Option Marks
  tableRows : Nat
  phase : Phase
  closed : Bool
  stats : JoinTally

/-- What comes of a step: the block to answer, the next state and the events. -/
structure Answer where
  block : Block
  state : JoinState
  events : List Event

namespace JoinState

/--
The state of a join that was never pulled; marks are kept only for a later sweep.
-/
def ofPlan (plan : JoinPlan) : JoinState where
  plan := plan
  table := .empty
  marks? := if plan.kind.sweepsRight then some .empty else none
  tableRows := 0
  phase := .fresh
  closed := false
  stats := .zero

/-- The kind of the join. -/
def kind (state : JoinState) : JoinKind := state.plan.kind

/-- Whether the join remembers which right rows were paired. -/
def tracksMatched (state : JoinState) : Bool := state.marks?.isSome

/-- Whether the join is past every failure, end and closing, so that it may pull. -/
def isActive (state : JoinState) : Bool :=
  match state.phase with
  | .fresh => !state.closed
  | .building => !state.closed
  | .probing => !state.closed
  | _ => false

/-- Fail for good. -/
def fail (state : JoinState) (cause : Fault) : Answer where
  block := .failed cause
  state := { state with phase := .failed cause }
  events := [.joinFailed state.kind state.phase cause]

/-- Close and drop the table; marks stay allocated but are emptied. -/
def release (state : JoinState) : JoinState :=
  { state with
    table := .empty
    marks? := state.marks?.map fun _ => .empty
    tableRows := 0
    closed := true }

/-- The row limit, if that many rows would exceed it. -/
def exceededLimit? (state : JoinState) (rows : Nat) : Option Nat :=
  state.plan.options.rowLimit.filter fun limit => limit < rows

/--
Store a right block, unless it exceeds the row limit or has a row of wrong width.
-/
def store (state : JoinState) (rows : List Row) : Except Fault JoinState :=
  match state.exceededLimit? (state.tableRows + rows.length) with
  | some limit => .error (.rowLimitExceeded limit)
  | none =>
      match checkWidths .right state.plan.rightWidth rows with
      | .error fault => .error fault
      | .ok () =>
          .ok { state with
            table := state.table.insertAll state.plan.rightKeys.key rows
            tableRows := state.tableRows + rows.length
            stats := { state.stats with
              rightBlocks := state.stats.rightBlocks + 1
              rightRows := state.stats.rightRows + rows.length } }

/-- Begin to drain the right input, or go on with it. -/
def beginBuild (state : JoinState) : JoinState := { state with phase := .building }

/-- Turn to the left input once the right one has ended. -/
def finishBuild (state : JoinState) : JoinState :=
  { state with
    phase := .probing
    stats := { state.stats with distinctKeys := state.table.keyCount } }

/-- The event of a completed table. -/
def builtEvent (state : JoinState) : Event :=
  .tableBuilt state.kind state.tableRows state.table.keyCount

/-- Remember the positions that a probe paired. -/
def markHits (state : JoinState) (hits : List (Key × Nat)) : JoinState :=
  { state with marks? := state.marks?.map fun marks => marks.markAll hits }

/-- Hand out the rows of a left block that was probed to its end. -/
def emitProbed (state : JoinState) (inputRows : Nat) (rows : List Row) :
    Answer where
  block := .ofRows rows state.plan.resultSchema
  state :=
    { state with
      stats := { state.stats with
        leftBlocks := state.stats.leftBlocks + 1
        leftRows := state.stats.leftRows + inputRows
        emittedRows := state.stats.emittedRows + rows.length } }
  events := [.leftBlockProbed state.kind inputRows rows.length]

/-- Probe a left block. -/
def probe (state : JoinState) (rows : List Row) : Answer :=
  match checkWidths .left state.plan.leftWidth rows with
  | .error fault => state.fail fault
  | .ok () =>
      let probed := state.plan.probeRows state.table rows
      let marked := state.markHits probed.hits
      match probed.fault? with
      | some fault => marked.fail fault
      | none => marked.emitProbed rows.length probed.rows

/-- The right rows that were never paired, padded on the left. -/
def unmatchedRows (state : JoinState) : List Row :=
  (state.table.unmarked state.plan.bucketOrder (state.marks?.getD .empty)).map
    state.plan.padLeft

/-- Hand out the right rows that were never paired. -/
def sweep (state : JoinState) : Answer :=
  let rows := state.unmatchedRows
  { block := .ofRows rows state.plan.resultSchema
    state :=
      { state with
        phase := .done
        stats := { state.stats with
          emittedRows := state.stats.emittedRows + rows.length
          unmatchedRightRows := rows.length } }
    events := [.unmatchedEmitted state.kind rows.length] }

/-- Answer the end of the left input. -/
def finishProbe (state : JoinState) : Answer :=
  if state.kind.sweepsRight then
    { state with phase := .sweeping }.sweep
  else
    ⟨.ended, { state with phase := .done }, []⟩

/-- A join as it is shown to a developer. -/
def describe (state : JoinState) : String :=
  "HashJoinOperator ".push '{' ++ " kind: " ++ state.kind.title ++
    ", state: " ++ state.phase.label ++
    ", left_width: " ++ state.plan.leftWidth.repr ++
    ", right_width: " ++ state.plan.rightWidth.repr ++
    ", broadcast_rows: " ++ state.tableRows.repr ++
    ", residuals: " ++ state.plan.residuals.describe ++
    (", closed: " ++ (if state.closed then "true" else "false") ++ ", .. ").push '}'

end JoinState

end StreamJoin
