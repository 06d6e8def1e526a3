import StreamJoin.Proofs.RecordedRuns

namespace StreamJoin

/-!
# Which keys are read

A key is the values of some columns of a row, and a column that the row does not
have reads as null.  A join never comes to that: it checks the width of all rows of
a block before it reads a key of any of them, whatever its children hand out.

Which keys are read is seen by reading them aloud: here are the steps of a join once
more, with a list of the rows whose keys were read.  Apart from the list they are
the steps of the join, and a run of a join is a replay of the blocks that its
children handed out.
-/

/--
A result, and the rows whose keys were read on the way to it, with their sides.
-/
structure KeyReads (Result : Type) where
  result : Result
  reads : List (Side × Row)

namespace KeyReads

instance : Monad KeyReads where
  pure result := ⟨result, []⟩
  bind first next :=
    ⟨(next first.result).result, first.reads ++ (next first.result).reads⟩

variable {Result Other : Type}

/-- A result without reads is that result. -/
@[simp]
theorem result_pure (result : Result) :
    (pure result : KeyReads Result).result = result := rfl

/-- A result without reads has none. -/
@[simp]
theorem reads_pure (result : Result) :
    (pure result : KeyReads Result).reads = [] := rfl

/-- What comes of two steps is what the second one makes of the first. -/
@[simp]
theorem result_bind (first : KeyReads Result) (next : Result → KeyReads Other) :
    (first >>= next).result = (next first.result).result := rfl

/-- Two steps read what the first one reads, and then the second. -/
@[simp]
theorem reads_bind (first : KeyReads Result) (next : Result → KeyReads Other) :
    (first >>= next).reads = first.reads ++ (next first.result).reads := rfl

end KeyReads

/-- Read the key of a row. -/
def KeyColumns.readKey (selected : KeyColumns) (side : Side) (row : Row) :
    KeyReads Key :=
  ⟨selected.key row, [(side, row)]⟩

/-- Add rows in order, each under its own key. -/
def Table.insertAllReading
    (selected : KeyColumns)
    (table : Table) :
    List Row → KeyReads Table
  | [] => pure table
  | row :: rest => do
      let key ← selected.readKey .right row
      (table.insert key row).insertAllReading selected rest

namespace JoinPlan

/-- Classify one left row. -/
def probeRowReading (plan : JoinPlan) (table : Table) (left : Row) :
    KeyReads Probe := do
  let key ← plan.leftKeys.readKey .left left
  match plan.kind.presence? with
  | some keptWhenPresent =>
      pure (.ofRows
        (if table.contains key = keptWhenPresent then [plan.padRight left] else []))
  | none =>
      pure (plan.padUnpaired left (plan.pairWith left key 0 (table.bucket key)))

/-- Classify left rows in order, up to the first predicate that fails. -/
def probeRowsReading (plan : JoinPlan) (table : Table) : List Row → KeyReads Probe
  | [] => pure .empty
  | left :: rest => do
      let first ← plan.probeRowReading table left
      match first.fault? with
      | some _ => pure first
      | none =>
          let later ← plan.probeRowsReading table rest
          pure (first.append later)

end JoinPlan

namespace JoinState

/--
Store a right block, unless it exceeds the row limit or has a row of wrong width.
-/
def storeReading (state : JoinState) (rows : List Row) :
    KeyReads (Except Fault JoinState) :=
  match state.exceededLimit? (state.tableRows + rows.length) with
  | some limit => pure (.error (.rowLimitExceeded limit))
  | none =>
      match checkWidths .right state.plan.rightWidth rows with
      | .error fault => pure (.error fault)
      | .ok () => do
          let table ← state.table.insertAllReading state.plan.rightKeys rows
          pure (.ok { state with
            table := table
            tableRows := state.tableRows + rows.length
            stats := { state.stats with
              rightBlocks := state.stats.rightBlocks + 1
              rightRows := state.stats.rightRows + rows.length } })

/-- Probe a left block. -/
def probeReading (state : JoinState) (rows : List Row) : KeyReads Answer :=
  match checkWidths .left state.plan.leftWidth rows with
  | .error fault => pure (state.fail fault)
  | .ok () => do
      let probed ← state.plan.probeRowsReading state.table rows
      let marked := state.markHits probed.hits
      match probed.fault? with
      | some fault => pure (marked.fail fault)
      | none => pure (marked.emitProbed rows.length probed.rows)

/-- Take a block of the right child into account. -/
def receiveRightReading (state : JoinState) : Block → KeyReads Received
  | .data batch => do
      match ← state.storeReading batch.rows with
      | .error fault =>
          pure ⟨some (.failed fault), (state.fail fault).state,
            (state.fail fault).events⟩
      | .ok stored => pure ⟨none, stored, [.rightBlockStored batch.rows.length]⟩
  | block => pure (state.receiveRight block)

/-- Take a block of the left child into account. -/
def receiveLeftReading (state : JoinState) : Block → KeyReads Answer
  | .data batch => state.probeReading batch.rows
  | block => pure (state.receiveLeft block)

/-- Take blocks of the right child into account, one after another. -/
def receiveRightsReading (state : JoinState) : List Block → KeyReads JoinState
  | [] => pure state
  | block :: rest => do
      let received ← state.beginBuild.receiveRightReading block
      received.state.receiveRightsReading rest

/-- Take blocks of the left child into account, one after another. -/
def receiveLeftsReading (state : JoinState) : List Block → KeyReads JoinState
  | [] => pure state
  | block :: rest => do
      let answer ← state.receiveLeftReading block
      answer.state.receiveLeftsReading rest

end JoinState

/--
A fresh join takes the blocks of its right child into account, and then those of its
left one.
-/
def JoinPlan.replay (plan : JoinPlan) (rights lefts : List Block) :
    KeyReads JoinState := do
  let built ← (JoinState.ofPlan plan).receiveRightsReading rights
  built.receiveLeftsReading lefts

section Results

variable {state : JoinState} {plan : JoinPlan} {table : Table}

/-- Noting the reads does not change the table that is filled. -/
theorem Table.result_insertAllReading (selected : KeyColumns) (rows : List Row) :
    (table.insertAllReading selected rows).result =
      table.insertAll selected.key rows := by
  induction rows generalizing table with
  | nil => rfl
  | cons row rest inductionHypothesis => exact inductionHypothesis

/-- Noting the reads does not change how a left row is answered. -/
theorem JoinPlan.result_probeRowReading (left : Row) :
    (plan.probeRowReading table left).result = plan.probeRow table left := by
  simp only [probeRowReading, probeRow, KeyReads.result_bind, KeyColumns.readKey]
  cases plan.kind.presence? <;> rfl

/-- Noting the reads does not change how left rows are answered. -/
theorem JoinPlan.result_probeRowsReading (lefts : List Row) :
    (plan.probeRowsReading table lefts).result = plan.probeRows table lefts := by
  induction lefts with
  | nil => rfl
  | cons left rest inductionHypothesis =>
      simp only [probeRowsReading, probeRows, KeyReads.result_bind,
        result_probeRowReading]
      cases failed : (plan.probeRow table left).fault? with
      | some fault => simp only [Probe.append, failed, KeyReads.result_pure]
      | none =>
          simp only [KeyReads.result_bind, KeyReads.result_pure,
            inductionHypothesis]

namespace JoinState

/-- Noting the reads does not change what storing a block does. -/
theorem result_storeReading (rows : List Row) :
    (state.storeReading rows).result = state.store rows := by
  unfold storeReading store
  cases state.exceededLimit? (state.tableRows + rows.length) with
  | some limit => rfl
  | none =>
      cases checkWidths .right state.plan.rightWidth rows with
      | error fault => rfl
      | ok checked =>
          simp only [KeyReads.result_bind, KeyReads.result_pure,
            Table.result_insertAllReading]

/-- Noting the reads does not change what probing a block does. -/
theorem result_probeReading (rows : List Row) :
    (state.probeReading rows).result = state.probe rows := by
  unfold probeReading probe
  cases checkWidths .left state.plan.leftWidth rows with
  | error fault => rfl
  | ok checked =>
      simp only [KeyReads.result_bind, JoinPlan.result_probeRowsReading]
      cases (state.plan.probeRows state.table rows).fault? <;> rfl

/-- Noting the reads does not change what a right block does. -/
theorem result_receiveRightReading (block : Block) :
    (state.receiveRightReading block).result = state.receiveRight block := by
  cases block with
  | data batch =>
      simp only [receiveRightReading, receiveRight, KeyReads.result_bind,
        result_storeReading]
      cases state.store batch.rows <;> rfl
  | _ => rfl

/-- Noting the reads does not change what a left block does. -/
theorem result_receiveLeftReading (block : Block) :
    (state.receiveLeftReading block).result = state.receiveLeft block := by
  cases block with
  | data batch => exact result_probeReading batch.rows
  | _ => rfl

/-- Right blocks are received one behind the other. -/
theorem result_receiveRightsReading_append (first : List Block) (block : Block) :
    (state.receiveRightsReading (first ++ [block])).result =
      ((state.receiveRightsReading first).result.beginBuild.receiveRight
        block).state := by
  induction first generalizing state with
  | nil =>
      simp only [List.nil_append, receiveRightsReading, KeyReads.result_bind,
        KeyReads.result_pure, result_receiveRightReading]
  | cons earlier rest inductionHypothesis => exact inductionHypothesis

/-- Left blocks are received one behind the other. -/
theorem result_receiveLeftsReading_append (first : List Block) (block : Block) :
    (state.receiveLeftsReading (first ++ [block])).result =
      ((state.receiveLeftsReading first).result.receiveLeft block).state := by
  induction first generalizing state with
  | nil =>
      simp only [List.nil_append, receiveLeftsReading, KeyReads.result_bind,
        KeyReads.result_pure, result_receiveLeftReading]
  | cons earlier rest inductionHypothesis => exact inductionHypothesis

end JoinState

end Results

/-- Rows that pass the check have the expected width. -/
theorem length_of_checkWidths
    {side : Side}
    {expected : Nat}
    {rows : List Row}
    (checked : checkWidths side expected rows = .ok ()) :
    ∀ row ∈ rows, row.length = expected := by
  cases found : rows.find? fun row => row.length ≠ expected with
  | some row =>
      simp only [checkWidths, firstWrongWidth?, found, Option.map_some] at checked
      cases checked
  | none => simpa using found

namespace JoinPlan

/-- The declared width of the rows of a side. -/
def declaredWidth (plan : JoinPlan) : Side → Nat
  | .left => plan.leftWidth
  | .right => plan.rightWidth

/-- The key columns of a side. -/
def keysOf (plan : JoinPlan) : Side → KeyColumns
  | .left => plan.leftKeys
  | .right => plan.rightKeys

/--
A row whose key may be read: it has its declared width, and with it every key
column.
-/
structure Readable (plan : JoinPlan) (read : Side × Row) : Prop where
  width_eq : read.2.length = plan.declaredWidth read.1
  present : ∀ column ∈ (plan.keysOf read.1).columns, read.2[column]?.isSome = true

variable {plan : JoinPlan} {table : Table}

/-- A row of its declared width has all key columns. -/
theorem readable_of_width
    {side : Side}
    {row : Row}
    (width_eq : row.length = plan.declaredWidth side) :
    plan.Readable (side, row) where
  width_eq := width_eq
  present column member := by
    rw [Option.isSome_iff_exists]
    have inside : column < plan.declaredWidth side := by
      cases side with
      | left =>
          exact
            (plan.leftKeys.firstMissing?_eq_none_iff _).mp plan.leftKeys_present
              column member
      | right =>
          exact
            (plan.rightKeys.firstMissing?_eq_none_iff _).mp plan.rightKeys_present
              column member
    exact ⟨_, List.getElem?_eq_getElem (width_eq.symm ▸ inside)⟩

/-- A left row is read once. -/
theorem reads_probeRowReading (left : Row) :
    (plan.probeRowReading table left).reads = [(.left, left)] := by
  simp only [probeRowReading, KeyReads.reads_bind]
  split <;> rfl

/-- Only the left rows of a block are read when it is probed. -/
theorem mem_of_reads_probeRowsReading
    {lefts : List Row}
    {read : Side × Row}
    (member : read ∈ (plan.probeRowsReading table lefts).reads) :
    ∃ left ∈ lefts, read = (.left, left) := by
  induction lefts with
  | nil => cases member
  | cons left rest inductionHypothesis =>
      simp only [probeRowsReading, KeyReads.reads_bind, reads_probeRowReading,
        List.singleton_append, List.mem_cons] at member
      rcases member with rfl | later
      · exact ⟨left, List.mem_cons_self, rfl⟩
      · split at later
        · cases later
        · simp only [KeyReads.reads_bind, KeyReads.reads_pure,
            List.append_nil] at later
          obtain ⟨other, inRest, rfl⟩ := inductionHypothesis later
          exact ⟨other, List.mem_cons_of_mem _ inRest, rfl⟩

end JoinPlan

/-- Each right row of a block is read once, in order. -/
theorem Table.reads_insertAllReading
    (selected : KeyColumns)
    (table : Table)
    (rows : List Row) :
    (table.insertAllReading selected rows).reads =
      rows.map fun row => (.right, row) := by
  induction rows generalizing table with
  | nil => rfl
  | cons row rest inductionHypothesis =>
      exact
        congrArg (List.cons _)
          (inductionHypothesis (table.insert (selected.key row) row))

namespace JoinState

variable {state : JoinState} {plan : JoinPlan}

/-- What is read while a block is stored has all key columns. -/
theorem readable_storeReading (state : JoinState) (rows : List Row) :
    ∀ read ∈ (state.storeReading rows).reads, state.plan.Readable read := by
  unfold storeReading
  split
  · exact nofun
  · split
    · exact nofun
    · next checked =>
        simp only [KeyReads.reads_bind, KeyReads.reads_pure, List.append_nil,
          Table.reads_insertAllReading, List.forall_mem_map]
        exact fun row member =>
          JoinPlan.readable_of_width (length_of_checkWidths checked row member)

/-- What is read while a block is probed has all key columns. -/
theorem readable_probeReading (state : JoinState) (rows : List Row) :
    ∀ read ∈ (state.probeReading rows).reads, state.plan.Readable read := by
  unfold probeReading
  split
  · exact nofun
  · next checked =>
      intro read member
      have probed :
          read ∈ (state.plan.probeRowsReading state.table rows).reads := by
        simp only [KeyReads.reads_bind] at member
        split at member <;> simpa using member
      obtain ⟨left, inRows, rfl⟩ := JoinPlan.mem_of_reads_probeRowsReading probed
      exact JoinPlan.readable_of_width (length_of_checkWidths checked left inRows)

/-- What is read of a right block has all key columns. -/
theorem readable_receiveRightReading (state : JoinState) (block : Block) :
    ∀ read ∈ (state.receiveRightReading block).reads, state.plan.Readable read := by
  cases block with
  | data batch =>
      intro read member
      have stored : read ∈ (state.storeReading batch.rows).reads := by
        simp only [receiveRightReading, KeyReads.reads_bind] at member
        split at member <;> simpa using member
      exact readable_storeReading state batch.rows read stored
  | _ =>
      intro read member
      cases member

/-- What is read of a left block has all key columns. -/
theorem readable_receiveLeftReading (state : JoinState) (block : Block) :
    ∀ read ∈ (state.receiveLeftReading block).reads, state.plan.Readable read := by
  cases block with
  | data batch => exact readable_probeReading state batch.rows
  | _ => exact nofun

/-- What is read of right blocks has all key columns. -/
theorem readable_receiveRightsReading (state : JoinState) (blocks : List Block) :
    ∀ read ∈ (state.receiveRightsReading blocks).reads,
      state.plan.Readable read := by
  induction blocks generalizing state with
  | nil => exact nofun
  | cons block rest inductionHypothesis =>
      intro read member
      rcases List.mem_append.mp member with now | later
      · exact readable_receiveRightReading state.beginBuild block read now
      · have samePlan := inductionHypothesis _ read later
        rwa [result_receiveRightReading, plan_receiveRight] at samePlan

/-- What is read of left blocks has all key columns. -/
theorem readable_receiveLeftsReading (state : JoinState) (blocks : List Block) :
    ∀ read ∈ (state.receiveLeftsReading blocks).reads,
      state.plan.Readable read := by
  induction blocks generalizing state with
  | nil => exact nofun
  | cons block rest inductionHypothesis =>
      intro read member
      rcases List.mem_append.mp member with now | later
      · exact readable_receiveLeftReading state block read now
      · have samePlan := inductionHypothesis _ read later
        rwa [result_receiveLeftReading, plan_receiveLeft] at samePlan

/-- Right blocks do not touch the plan. -/
theorem plan_receiveRightsReading (state : JoinState) (blocks : List Block) :
    (state.receiveRightsReading blocks).result.plan = state.plan := by
  induction blocks generalizing state with
  | nil => rfl
  | cons block rest inductionHypothesis =>
      refine (inductionHypothesis _).trans ?_
      rw [result_receiveRightReading, plan_receiveRight]
      rfl

end JoinState

/--
Whatever blocks a join receives, it reads keys of rows of declared width only.
-/
theorem JoinPlan.readable_replay (plan : JoinPlan) (rights lefts : List Block) :
    ∀ read ∈ (plan.replay rights lefts).reads, plan.Readable read := by
  intro read member
  rcases List.mem_append.mp member with building | probing
  · exact
      JoinState.readable_receiveRightsReading (.ofPlan plan) rights read building
  · have readable := JoinState.readable_receiveLeftsReading _ lefts read probing
    rwa [JoinState.plan_receiveRightsReading] at readable

namespace JoinRecord

/--
The state of a join is the one that a fresh join comes to when it takes the same
blocks into account, or that state closed.
-/
def Replayed (record : JoinRecord) : Prop :=
  let replayed := (record.state.plan.replay record.rights record.lefts).result
  record.state = replayed ∨ record.state = replayed.release

variable {state : JoinState} {rights lefts answers more : List Block}

/-- An open join is what receiving its blocks once more leads to. -/
theorem Replayed.of_open
    (replayed : Replayed ⟨state, rights, lefts, answers⟩)
    (opened : state.closed = false) :
    state = (state.plan.replay rights lefts).result := by
  rcases replayed with same | released
  · exact same
  · have closed : state.closed = true := congrArg JoinState.closed released
    rw [closed] at opened
    cases opened

/-- One more right block can be replayed. -/
theorem Replayed.receiveRight
    (replayed : Replayed ⟨state, rights, [], answers⟩)
    (opened : state.closed = false)
    (block : Block) :
    Replayed
      ⟨(state.beginBuild.receiveRight block).state, rights ++ [block], [],
        more⟩ := by
  left
  have before :
      state = ((JoinState.ofPlan state.plan).receiveRightsReading rights).result :=
    replayed.of_open opened
  have samePlan : (state.beginBuild.receiveRight block).state.plan = state.plan :=
    JoinState.plan_receiveRight
  simp only [samePlan]
  exact
    (congrArg (fun earlier => (earlier.beginBuild.receiveRight block).state)
      before).trans (JoinState.result_receiveRightsReading_append rights block).symm

/-- One more left block can be replayed. -/
theorem Replayed.receiveLeft
    (replayed : Replayed ⟨state, rights, lefts, answers⟩)
    (opened : state.closed = false)
    (block : Block) :
    Replayed ⟨(state.receiveLeft block).state, rights, lefts ++ [block], more⟩ := by
  left
  have before : state = (state.plan.replay rights lefts).result :=
    replayed.of_open opened
  have samePlan : (state.receiveLeft block).state.plan = state.plan :=
    JoinState.plan_receiveLeft
  simp only [samePlan]
  exact
    (congrArg (fun earlier => (earlier.receiveLeft block).state) before).trans
      (JoinState.result_receiveLeftsReading_append lefts block).symm

/-- A closed join need not be replayed. -/
theorem Replayed.release (replayed : Replayed ⟨state, rights, lefts, answers⟩) :
    Replayed ⟨state.release, rights, lefts, more⟩ := by
  right
  rcases replayed with same | released
  · exact congrArg JoinState.release same
  · have released : state = (state.plan.replay rights lefts).result.release :=
      released
    exact (congrArg JoinState.release released).trans (JoinState.release_release _)

/-- A join that drains its right child has not pulled its left one. -/
theorem Course.lefts_eq
    (course : Course ⟨state, rights, lefts, answers⟩)
    (beforeProbing : state.phase.isBeforeProbing = true) :
    lefts = [] := by
  cases course with
  | building => rfl
  | refused => rfl
  | streaming pastBuilding =>
      rw [pastBuilding] at beforeProbing
      cases beforeProbing

/-- Every run can be replayed from the blocks that were received. -/
theorem maintained_replayed :
    Maintained fun record => record.Course ∧ record.Replayed where
  receivesRight block opened beforeProbing holds := by
    obtain ⟨course, replayed⟩ := holds
    obtain rfl := course.lefts_eq beforeProbing
    exact
      ⟨course.receiveRight opened beforeProbing block,
        replayed.receiveRight opened block⟩
  receivesLeft block opened probing holds :=
    ⟨holds.1.receiveLeft opened probing block, holds.2.receiveLeft opened block⟩
  repeatsLast _ holds := ⟨holds.1.withAnswers, holds.2⟩
  released holds := ⟨holds.1.release, holds.2.release⟩

end JoinRecord

end StreamJoin
