import StreamJoin.Proofs.JoinChronicle

namespace StreamJoin

/-!
# What the log tells of a join

The log of a join over children that report nothing is determined by the join and by
what was asked of it.  The entries about its life are those of its chronicle.  They
say of the table, of the sweep, of the failure and of the closing just what the
state of the join says, and what they count of left blocks adds up to its
statistics.  Besides, there is one entry for each pull that found the join neither
failed nor closed.

What a log says with some messages comes piece by piece from what is reported, so
both parts of it follow the requests.
-/

/-- The entries of a log whose message is one of some. -/
def entriesWith (messages : List String) (log : List LogEntry) : List LogEntry :=
  log.filter fun entry => entry.message ∈ messages

/-- The messages about the life of a join. -/
def lifeMessages : List String :=
  ["broadcast table built", "probed left block", "emitted unmatched right rows",
    "hash join terminated by error", "hash join closed"]

/-- The message about one pull of a join. -/
def pullMessage : String := "hash join pull"

/-- The log of two lists of events is that of one and of the other. -/
theorem logOf_append (first later : List Event) :
    logOf (first ++ later) = logOf first ++ logOf later :=
  List.filterMap_append

/-- So are its entries with some messages. -/
theorem entriesWith_logOf_append
    (messages : List String)
    (first later : List Event) :
    entriesWith messages (logOf (first ++ later)) =
      entriesWith messages (logOf first) ++ entriesWith messages (logOf later) := by
  rw [logOf_append]
  exact List.filter_append ..

/-- The log entries about the life of a join are those of its milestones. -/
theorem entriesWith_lifeMessages (events : List Event) :
    entriesWith lifeMessages (logOf events) = logOf (milestonesOf events) := by
  have ofEvent (event : Event) :
      event.logEntry?.filter (fun entry => entry.message ∈ lifeMessages) =
        if event.isMilestone then event.logEntry? else none := by
    cases event <;> rfl
  rw [entriesWith, logOf, List.filter_filterMap, logOf, milestonesOf,
    List.filterMap_filter]
  exact List.filterMap_congr fun event _ => ofEvent event

/-- The log entry of a left block with given numbers of rows. -/
def LogEntry.ofProbe (kind : JoinKind) (counts : Nat × Nat) : LogEntry :=
  ⟨.debug, "probed left block",
    [("join_kind", kind.label), ("input_rows", counts.1.repr),
      ("output_rows", counts.2.repr)]⟩

/--
The entries about the life of a join in some state, in the order of a log, if its
table was built or not and it probed left blocks with given numbers of rows.
-/
def JoinState.lifeEntries
    (state : JoinState)
    (built : Bool)
    (probes : List (Nat × Nat)) :
    List LogEntry :=
  (if built then
      [⟨.info, "broadcast table built",
        [("join_kind", state.kind.label),
          ("right_rows", state.stats.rightRows.repr),
          ("distinct_keys", state.stats.distinctKeys.repr)]⟩]
    else
      []) ++
    probes.map (.ofProbe state.kind) ++
    (if state.kind.sweepsRight = true ∧ state.phase = .done then
      [⟨.debug, "emitted unmatched right rows",
        [("join_kind", state.kind.label),
          ("unmatched_right_rows", state.stats.unmatchedRightRows.repr)]⟩]
    else
      []) ++
    (state.phase.cause?.toList.map fun cause =>
      ⟨.warn, "hash join terminated by error",
        [("join_kind", state.kind.label),
          ("state", if built then "Probing" else "Building"),
          ("error", cause.message)]⟩) ++
    if state.closed then
      [⟨.debug, "hash join closed", [("join_kind", state.kind.label)]⟩]
    else
      []

namespace JoinRecord

/-- Whether the table of a join was built: whether its right child has ended. -/
def built (record : JoinRecord) : Bool := .ended ∈ record.rights

/-- In the log, a chronicle reads as the entries about the life of the join. -/
theorem logOf_chronicle (record : JoinRecord) :
    logOf record.chronicle =
      record.state.lifeEntries record.built record.probes := by
  have logOf_probes :
      logOf (record.probes.map (.ofProbe record.state.kind)) =
        record.probes.map (.ofProbe record.state.kind) :=
    List.filterMap_map.trans (congrFun List.filterMap_eq_map _)
  have logOf_failure (failing : Phase) :
      logOf
          (record.state.phase.cause?.toList.map
            (.joinFailed record.state.kind failing)) =
        record.state.phase.cause?.toList.map fun cause =>
          ⟨.warn, "hash join terminated by error",
            [("join_kind", record.state.kind.label), ("state", failing.label),
              ("error", cause.message)]⟩ :=
    List.filterMap_map.trans (congrFun List.filterMap_eq_map _)
  have label_eq :
      record.runningPhase.label =
        if record.built then "Probing" else "Building" := by
    unfold runningPhase built
    by_cases ended : .ended ∈ record.rights
    · simp only [ended, if_true, decide_true]
      rfl
    · simp only [ended, if_false, decide_false, Bool.false_eq_true]
      rfl
  simp only [chronicle, JoinState.lastMilestones, logOf_append, logOf_probes,
    logOf_failure, label_eq, JoinState.lifeEntries, List.append_assoc, built,
    decide_eq_true_eq]
  refine congrArg₂ (· ++ ·) ?_ (congrArg₂ (· ++ ·) rfl (congrArg₂ (· ++ ·) ?_
    (congrArg₂ (· ++ ·) rfl ?_)))
  · split <;> rfl
  · split <;> rfl
  · split <;> rfl

variable {taken answered : List Block}

/-- The rows that were probed sum up to those of the blocks that were taken. -/
theorem sum_inputs (enough : taken.length ≤ answered.length) :
    ((List.zipWith rowCounts taken answered).map Prod.fst).sum =
      (rowsOf taken).length := by
  induction taken generalizing answered with
  | nil => rfl
  | cons block rest inductionHypothesis =>
      cases answered with
      | nil => cases enough
      | cons answer later =>
          have restSum := inductionHypothesis (Nat.le_of_succ_le_succ enough)
          rw [rowsOf_cons, List.length_append, ← restSum]
          rfl

/--
The rows of the answers to left blocks, and those of the answers behind them, are
all rows.
-/
theorem sum_outputs (taken answered : List Block) :
    ((List.zipWith rowCounts taken answered).map Prod.snd).sum +
        (rowsOf (answered.drop taken.length)).length =
      (rowsOf answered).length := by
  induction taken generalizing answered with
  | nil => exact Nat.zero_add _
  | cons block rest inductionHypothesis =>
      cases answered with
      | nil => rfl
      | cons answer later =>
          rw [rowsOf_cons, List.length_append, ← inductionHypothesis later,
            ← Nat.add_assoc]
          rfl

/--
The probed left blocks of a join are as many, and carry as many rows, as it has
counted.
-/
structure ProbesCounted (probes : List (Nat × Nat)) (stats : JoinTally) : Prop where
  blocks : probes.length = stats.leftBlocks
  inputs : (probes.map Prod.fst).sum = stats.leftRows
  outputs : (probes.map Prod.snd).sum + stats.unmatchedRightRows = stats.emittedRows

/-- A truthful record counts its probes. -/
theorem Truthful.probesCounted
    {record : JoinRecord}
    (truthful : record.Truthful) :
    ProbesCounted record.probes record.state.stats := by
  have enough := truthful.length_answers.ge.trans' (Nat.le_add_right _ _)
  rw [truthful.stats_eq]
  constructor
  · exact List.length_zipWith.trans (min_eq_left enough)
  · exact (sum_inputs enough).trans (congrArg List.length (rowsOf_dataOf _))
  · exact
      (sum_outputs _ _).trans (congrArg List.length (rowsOf_dataOf record.answers))

/-- If the table was not built, nothing was taken from the left child. -/
theorem Course.lefts_eq_of_notBuilt
    {record : JoinRecord}
    (course : record.Course)
    (notBuilt : record.built = false) :
    record.lefts = [] := by
  cases course with
  | building => rfl
  | refused => rfl
  | streaming => simp [built] at notBuilt

/-- Unless a join has failed, its phase tells whether the table was built. -/
theorem Course.built_eq
    {record : JoinRecord}
    (course : record.Course)
    (noFailure : record.state.phase.cause? = none) :
    record.built = !record.state.phase.isBeforeProbing := by
  cases course with
  | building beforeProbing passes _ =>
      have notEnded := ended_notMem_of_passes (fun _ _ => rfl) passes
      simp [built, beforeProbing, notEnded]
  | refused failed =>
      rw [failed] at noFailure
      cases noFailure
  | streaming pastBuilding => simp [built, pastBuilding]

end JoinRecord

/-- The log entry of a pull that was answered by a block. -/
def Block.pullEntry (block : Block) : LogEntry :=
  ⟨.trace, pullMessage, [("block", block.label), ("rows", block.rows.length.repr)]⟩

namespace JoinState

variable {state : JoinState}

/-- Whether a join is neither failed nor closed. -/
def isLive (state : JoinState) : Bool := state.phase.cause?.isNone && !state.closed

/-- A join that may pull is live. -/
theorem isLive_of_active (active : state.isActive = true) :
    state.isLive = true := by
  have noFailure := noFailure_of_active active
  have opened := (running_of_isActive active).1
  simp [isLive, noFailure, opened]

/-- What is received from a child is not logged as a pull. -/
theorem noPulls_receiveRight (block : Block) :
    entriesWith [pullMessage] (logOf (state.receiveRight block).events) = [] := by
  cases block with
  | idle => rfl
  | ended => rfl
  | failed cause => rfl
  | data batch =>
      simp only [receiveRight]
      split <;> rfl

/-- Taking a left block logs no pull. -/
theorem noPulls_receiveLeft (block : Block) :
    entriesWith [pullMessage] (logOf (state.receiveLeft block).events) = [] := by
  cases block with
  | idle => rfl
  | ended =>
      simp only [receiveLeft, finishProbe]
      split <;> rfl
  | failed cause => rfl
  | data batch =>
      simp only [receiveLeft, probe]
      split
      · rfl
      · split <;> rfl

end JoinState

namespace BroadcastJoin

variable {Left Right : Type} [Operator Left] [Drainable Right]
variable {join : BroadcastJoin Left Right}

/-- The answers to those of some requests that are pulls of a live join. -/
def liveAnswers (join : BroadcastJoin Left Right) : List Call → List Block
  | [] => []
  | .pull :: rest =>
      (if join.state.isLive then [join.pull.block] else []) ++
        join.pull.next.liveAnswers rest
  | .close :: rest => join.close.next.liveAnswers rest

/-- Going on logs no pull of its own. -/
theorem noPulls_advance
    (silentLeft : Operator.Silent Left)
    (silentRight : Operator.Silent Right)
    (active : join.state.isActive = true) :
    entriesWith [pullMessage] (logOf join.advance.events) = [] := by
  apply advance_induction
    (motive := fun _ pulled => entriesWith [pullMessage] (logOf pulled.events) = [])
    _ _ _ active
  · intro join _ _
    rw [pullLeft_eq_receive, silentLeft.pull_eq]
    exact JoinState.noPulls_receiveLeft (Operator.pull join.left).block
  · intro join answered _ _ _
    rw [rightEvents, silentRight.pull_eq]
    exact JoinState.noPulls_receiveRight (Operator.pull join.right).block
  · intro join _ _ _ later
    rw [Pull.after, entriesWith_logOf_append, later, rightEvents,
      silentRight.pull_eq]
    exact
      congrArg₂ (· ++ ·)
        (JoinState.noPulls_receiveRight (Operator.pull join.right).block) rfl

/-- A pull of a live join is logged with its answer, and any other pull is not. -/
theorem pullEntries_pull
    (silentLeft : Operator.Silent Left)
    (silentRight : Operator.Silent Right)
    (join : BroadcastJoin Left Right) :
    entriesWith [pullMessage] (logOf join.pull.events) =
      if join.state.isLive then [join.pull.block.pullEntry] else [] := by
  cases active : join.state.isActive with
  | true =>
      rw [pull_of_isActive active, JoinState.isLive_of_active active]
      have framed_eq :
          entriesWith [pullMessage] (logOf (join.framed join.advance).events) =
            entriesWith [pullMessage] (logOf (join.advance.events ++ [_])) := rfl
      rw [framed_eq, entriesWith_logOf_append,
        noPulls_advance silentLeft silentRight active]
      rfl
  | false =>
      rw [pull_eq_of_inactive active]
      unfold JoinState.lastEvents JoinState.isLive JoinState.lastBlock
      cases join.state.phase.cause? <;> cases join.state.closed <;> rfl

/-- Closing logs no pull. -/
theorem pullEntries_close
    (silentLeft : Operator.Silent Left)
    (silentRight : Operator.Silent Right)
    (join : BroadcastJoin Left Right) :
    entriesWith [pullMessage] (logOf join.close.events) = [] := by
  unfold close
  split
  · rfl
  · simp only [silentLeft.close_eq, silentRight.close_eq]
    rfl

/-- The pulls in the log are those that were answered alive, in order. -/
theorem pullEntries_reports
    (silentLeft : Operator.Silent Left)
    (silentRight : Operator.Silent Right)
    (join : BroadcastJoin Left Right)
    (calls : List Call) :
    entriesWith [pullMessage] (logOf (Operator.reports join calls)) =
      (join.liveAnswers calls).map Block.pullEntry := by
  induction calls generalizing join with
  | nil => rfl
  | cons call rest inductionHypothesis =>
      cases call with
      | pull =>
          have reports_eq :
              Operator.reports join (.pull :: rest) =
                join.pull.events ++ Operator.reports join.pull.next rest := rfl
          rw [reports_eq, entriesWith_logOf_append,
            pullEntries_pull silentLeft silentRight join, inductionHypothesis,
            liveAnswers, List.map_append]
          split <;> rfl
      | close =>
          have reports_eq :
              Operator.reports join (.close :: rest) =
                join.close.events ++ Operator.reports join.close.next rest := rfl
          rw [reports_eq, entriesWith_logOf_append,
            pullEntries_close silentLeft silentRight join, inductionHypothesis,
            liveAnswers]
          rfl

/-- A join that is not live answers no rows. -/
theorem rowsOf_liveAnswers (join : BroadcastJoin Left Right) (calls : List Call) :
    rowsOf (join.liveAnswers calls) = rowsOf (Operator.replies join calls) := by
  induction calls generalizing join with
  | nil => rfl
  | cons call rest inductionHypothesis =>
      cases call with
      | close => exact inductionHypothesis join.close.next
      | pull =>
          have replies_eq :
              Operator.replies join (.pull :: rest) =
                join.pull.block :: Operator.replies join.pull.next rest := rfl
          rw [replies_eq, rowsOf_cons, liveAnswers, rowsOf_append,
            inductionHypothesis]
          refine congrArg₂ (· ++ ·) ?_ rfl
          cases live : join.state.isLive with
          | true => exact rowsOf_singleton join.pull.block
          | false =>
              have inactive : join.state.isActive = false := by
                apply Bool.eq_false_iff.mpr
                intro active
                rw [JoinState.isLive_of_active active] at live
                cases live
              have noRows : join.state.lastBlock.rows = [] := by
                rw [← rowsOf_singleton, ← rowsOf_dataOf, JoinState.dataOf_lastBlock]
                rfl
              rw [(pull_of_inactive inactive).1, noRows]
              rfl

/--
The log of a join in some state agrees with it, if its table was built or not, it
probed left blocks with given numbers of rows, and gave some answers while it was
live.
-/
structure LogAgrees
    (log : List LogEntry)
    (state : JoinState)
    (built : Bool)
    (probes : List (Nat × Nat))
    (answered : List Block) : Prop where
  life : entriesWith lifeMessages log = state.lifeEntries built probes
  built_eq : state.phase.cause? = none → built = !state.phase.isBeforeProbing
  probes_eq_of_notBuilt : built = false → probes = []
  probesCounted : JoinRecord.ProbesCounted probes state.stats
  pulls : entriesWith [pullMessage] log = answered.map Block.pullEntry
  sum_pulls :
    (answered.map fun block => block.rows.length).sum = state.stats.emittedRows

/--
Whatever is asked of a join over two queued sources, its log agrees with its state.
The entries about its life are, in this order: one for the table, if the right
source has ended; one for each probed left block, and they add up to the statistics;
one for the sweep, if the join sweeps and is done; one for the failure, if it has
failed, with the phase in which it did; and one for the closing, if it was closed.
There is one further entry for each pull of the join while it was neither failed nor
closed.
-/
theorem log_agrees
    {left right : Replay}
    {spec : JoinSpec}
    {options : JoinOptions}
    {order : BucketOrder}
    {join : BroadcastJoin Replay Replay}
    (accepted : ofSpec left right spec options order = .ok join)
    (calls : List Call) :
    LogAgrees (logOf (Operator.reports join calls))
      (Operator.afterCalls join calls).state (join.recordAfter calls).built
      (join.recordAfter calls).probes (join.liveAnswers calls) := by
  have course := course_recordAfter accepted calls
  have truthful := (kept_recordAfter accepted calls).truthful
  rw [← state_recordAfter join calls]
  refine ⟨?_, course.built_eq, ?_, truthful.probesCounted, ?_, ?_⟩
  · rw [entriesWith_lifeMessages,
      ← chronicle_recordAfter Replay.silent Replay.silent accepted]
    exact (join.recordAfter calls).logOf_chronicle
  · intro notBuilt
    rw [JoinRecord.probes, course.lefts_eq_of_notBuilt notBuilt]
    rfl
  · exact pullEntries_reports Replay.silent Replay.silent join calls
  · rw [← List.length_flatMap, truthful.stats_eq]
    exact congrArg List.length (rowsOf_liveAnswers join calls)

/-- One column of whole numbers. -/
def loggedSchema : Schema := ⟨[⟨"number", .int⟩]⟩

/-- A join of both sides by their only columns. -/
def loggedSpec : JoinSpec := .equiJoin .full loggedSchema loggedSchema ⟨[0]⟩ ⟨[0]⟩

/-- A small join of which one row on each side has no partner. -/
def loggedJoin : BroadcastJoin Replay Replay :=
  ⟨.ofPlan ((JoinPlan.ofSpec loggedSpec .default).toOption.get rfl),
    .ofBatches loggedSchema [[[.int 1], [.int 3]]],
      .ofBatches loggedSchema [[[.int 1], [.int 2]]]⟩

/--
Pulled again behind its sweep and closed twice, the join has logged each milestone
once, and the three pulls that were made before.
-/
theorem log_agrees_sample :
    let calls : List Call := [.pull, .pull, .pull, .close, .pull, .close]
    let reached := (Operator.afterCalls loggedJoin calls).state
    LogAgrees (logOf (Operator.reports loggedJoin calls)) reached true [(2, 2)]
        (loggedJoin.liveAnswers calls) ∧
      reached.phase = .done ∧
      reached.stats = ⟨1, 2, 2, 1, 2, 3, 1⟩ ∧
      (loggedJoin.liveAnswers calls).map Block.label =
        ["data", "data", "end_of_stream"] ∧
      reached.lifeEntries true [(2, 2)] =
        [⟨.info, "broadcast table built",
            [("join_kind", "FULL"), ("right_rows", "2"), ("distinct_keys", "2")]⟩,
          ⟨.debug, "probed left block",
            [("join_kind", "FULL"), ("input_rows", "2"), ("output_rows", "2")]⟩,
          ⟨.debug, "emitted unmatched right rows",
            [("join_kind", "FULL"), ("unmatched_right_rows", "1")]⟩,
          ⟨.debug, "hash join closed", [("join_kind", "FULL")]⟩] := by
  intro calls reached
  have accepted :
      ofSpec loggedJoin.left loggedJoin.right loggedSpec .default =
        .ok loggedJoin := rfl
  have agrees := log_agrees accepted calls
  have built : (loggedJoin.recordAfter calls).built = true := by decide +kernel
  have probes_eq : (loggedJoin.recordAfter calls).probes = [(2, 2)] := by
    decide +kernel
  rw [built, probes_eq] at agrees
  exact
    ⟨agrees, by decide +kernel, by decide +kernel, by decide +kernel,
      by decide +kernel⟩

end BroadcastJoin

end StreamJoin
