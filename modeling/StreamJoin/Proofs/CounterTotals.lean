import Mathlib.Algebra.Ring.Nat
import StreamJoin.Proofs.JoinLedger

namespace StreamJoin

/-!
# Totals and reports

The counters that joins share are sums.  What a join reports of a block that it
receives is what its own statistics gain, so that a sum over joins and a count of
reports stay equal wherever the block is received.
-/

attribute [ext] Counters

namespace Counters

instance : Zero Counters := ⟨zero⟩

instance : Add Counters where
  add first later :=
    ⟨first.buildRows + later.buildRows, first.probeRows + later.probeRows,
      first.outputRows + later.outputRows,
      first.unmatchedRightRows + later.unmatchedRightRows,
      first.errors + later.errors⟩

instance : AddCommMonoid Counters where
  add_assoc first second third := by
    ext <;> exact Nat.add_assoc ..
  zero_add counters := by
    ext <;> exact Nat.zero_add _
  add_zero counters := rfl
  add_comm first later := by
    ext <;> exact Nat.add_comm ..
  nsmul := nsmulRec

/-- Counting an event adds to earlier totals what it adds to later ones. -/
theorem add_record (first later : Counters) (event : Event) :
    (first + later).record event = first + later.record event := by
  cases event with
  | rightBlockStored rows => ext <;> first | rfl | exact Nat.add_assoc ..
  | leftBlockProbed kind inputRows outputRows =>
      ext <;> first | rfl | exact Nat.add_assoc ..
  | unmatchedEmitted kind rows => ext <;> first | rfl | exact Nat.add_assoc ..
  | joinFailed kind phase cause => rfl
  | pullOpened kind phase => rfl
  | tableBuilt kind rightRows distinctKeys => rfl
  | pullAnswered label rows => rfl
  | joinClosed kind => rfl
  | childAnswered side block => rfl

/-- Counting events adds to earlier totals what it adds to later ones. -/
theorem add_recordAll (first later : Counters) (events : List Event) :
    (first + later).recordAll events = first + later.recordAll events := by
  induction events generalizing later with
  | nil => rfl
  | cons event rest inductionHypothesis =>
      have recorded := inductionHypothesis (later.record event)
      rw [← add_record] at recorded
      exact recorded

/-- Events are counted one list after the other. -/
theorem recordAll_append (counters : Counters) (first later : List Event) :
    counters.recordAll (first ++ later) =
      (counters.recordAll first).recordAll later :=
  List.foldl_append

end Counters

/-- What some events add to the counters. -/
def gained (events : List Event) : Counters := Counters.zero.recordAll events

/-- Two lists of events gain what they gain one by one. -/
theorem gained_append (first later : List Event) :
    gained (first ++ later) = gained first + gained later := by
  rw [gained, Counters.recordAll_append, ← gained]
  exact Counters.add_recordAll (gained first) .zero later

/-- A stored right block gains its rows. -/
theorem gained_rightBlockStored (rows : Nat) :
    gained [.rightBlockStored rows] = ⟨rows, 0, 0, 0, 0⟩ := by
  simp [gained, Counters.recordAll, Counters.record, Counters.zero]

/-- A probed left block gains its rows and those it paired. -/
theorem gained_leftBlockProbed (kind : JoinKind) (inputRows outputRows : Nat) :
    gained [.leftBlockProbed kind inputRows outputRows] =
      ⟨0, inputRows, outputRows, 0, 0⟩ := by
  simp [gained, Counters.recordAll, Counters.record, Counters.zero]

/-- The sweep gains its rows, as unmatched ones and as output. -/
theorem gained_unmatchedEmitted (kind : JoinKind) (rows : Nat) :
    gained [.unmatchedEmitted kind rows] = ⟨0, 0, rows, rows, 0⟩ := by
  simp [gained, Counters.recordAll, Counters.record, Counters.zero]

/--
The totals over some joins: sums of their statistics, and how many of them failed.
-/
def totalsOf (joins : List JoinState) : Counters where
  buildRows := (joins.map fun join => join.stats.rightRows).sum
  probeRows := (joins.map fun join => join.stats.leftRows).sum
  outputRows := (joins.map fun join => join.stats.emittedRows).sum
  unmatchedRightRows := (joins.map fun join => join.stats.unmatchedRightRows).sum
  errors := joins.countP fun join => join.phase.cause?.isSome

/-- Two lists of joins have the totals of one and the other. -/
theorem totalsOf_append (first later : List JoinState) :
    totalsOf (first ++ later) = totalsOf first + totalsOf later := by
  ext
  all_goals
    simp only [totalsOf, List.map_append, List.sum_append, List.countP_append]
  all_goals rfl

namespace JoinState

variable {state stored : JoinState} {rows : List Row}

/-- What the statistics of one join add to the totals. -/
theorem totalsOf_singleton (state : JoinState) :
    totalsOf [state] =
      ⟨state.stats.rightRows, state.stats.leftRows, state.stats.emittedRows,
        state.stats.unmatchedRightRows, state.phase.cause?.isSome.toNat⟩ := by
  ext
  all_goals
    simp only [totalsOf, List.map_singleton, List.sum_singleton,
      List.countP_singleton]
  cases state.phase.cause?.isSome <;> rfl

/-- A join that was never pulled adds nothing to the totals. -/
theorem totalsOf_ofPlan (plan : JoinPlan) : totalsOf [.ofPlan plan] = 0 := by
  rw [totalsOf_singleton]
  rfl

/-- A failure adds one error to the totals. -/
theorem totalsOf_fail
    (noFailure : state.phase.cause? = none)
    (cause : Fault) :
    totalsOf [(state.fail cause).state] =
      totalsOf [state] + gained (state.fail cause).events := by
  rw [totalsOf_singleton, totalsOf_singleton, noFailure]
  rfl

/-- Beginning to build adds nothing to the totals. -/
theorem totalsOf_beginBuild (noFailure : state.phase.cause? = none) :
    totalsOf [state.beginBuild] = totalsOf [state] := by
  rw [totalsOf_singleton, totalsOf_singleton, noFailure]
  rfl

/-- Storing a right block adds its rows to the totals. -/
theorem totalsOf_store
    (accepted : state.store rows = .ok stored) :
    totalsOf [stored] =
      totalsOf [state] + gained [.rightBlockStored rows.length] := by
  rw [totalsOf_singleton, totalsOf_singleton, stats_store accepted,
    phase_store accepted, gained_rightBlockStored]
  rfl

/-- A right block adds to the statistics what is reported of it. -/
theorem totalsOf_receiveRight
    (noFailure : state.phase.cause? = none)
    (block : Block) :
    totalsOf [(state.receiveRight block).state] =
      totalsOf [state] + gained (state.receiveRight block).events := by
  cases block with
  | idle => rfl
  | failed cause => exact totalsOf_fail noFailure cause
  | ended =>
      rw [totalsOf_singleton, totalsOf_singleton, noFailure]
      rfl
  | data batch =>
      cases outcome : state.store batch.rows with
      | error fault =>
          simp only [receiveRight, outcome]
          exact totalsOf_fail noFailure fault
      | ok stored =>
          simp only [receiveRight, outcome]
          exact totalsOf_store outcome

/-- Probing a left block adds to the totals what its events say. -/
theorem totalsOf_probe
    (noFailure : state.phase.cause? = none)
    (rows : List Row) :
    totalsOf [(state.probe rows).state] =
      totalsOf [state] + gained (state.probe rows).events := by
  unfold probe
  split
  · exact totalsOf_fail noFailure _
  · simp only
    split
    · exact totalsOf_fail noFailure _
    · rw [totalsOf_singleton, totalsOf_singleton, emitProbed,
        gained_leftBlockProbed]
      rfl

/-- The end of the left input adds to the totals what its events say. -/
theorem totalsOf_finishProbe
    (noFailure : state.phase.cause? = none)
    (noSweep : state.stats.unmatchedRightRows = 0) :
    totalsOf [state.finishProbe.state] =
      totalsOf [state] + gained state.finishProbe.events := by
  unfold finishProbe
  split
  · rw [totalsOf_singleton, totalsOf_singleton, noFailure, noSweep, sweep,
      gained_unmatchedEmitted]
    ext
    · rfl
    · rfl
    · rfl
    · exact (Nat.zero_add _).symm
    · rfl
  · rw [totalsOf_singleton, totalsOf_singleton, noFailure]
    rfl

/--
A left block adds to the statistics what is reported of it, the sweep only once.
-/
theorem totalsOf_receiveLeft
    (noFailure : state.phase.cause? = none)
    (noSweep : state.stats.unmatchedRightRows = 0)
    (block : Block) :
    totalsOf [(state.receiveLeft block).state] =
      totalsOf [state] + gained (state.receiveLeft block).events := by
  cases block with
  | idle => rfl
  | failed cause => exact totalsOf_fail noFailure cause
  | ended => exact totalsOf_finishProbe noFailure noSweep
  | data batch => exact totalsOf_probe noFailure batch.rows

end JoinState

end StreamJoin
