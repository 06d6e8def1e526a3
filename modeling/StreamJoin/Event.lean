import StreamJoin.Stream.Block
import StreamJoin.Join.Kind
import StreamJoin.Join.Phase

namespace StreamJoin

/-!
# Events

What joins report while they run.  The events of a step are listed in the order in
which they happen, the events of nested joins among them.  Two readings of them are
defined here: the log, one entry for each event that is logged, and the counters
that all joins of a program share.

A join is silent about the single pulls of its children.  `childAnswered` is for
children that are watched: such a child reports each pull with its answer.
-/

/--
Something that a join or a watched child reports.  The report of a table that was
built says how large the table is, and not how long it took.
-/
inductive Event where
  | pullOpened (kind : JoinKind) (phase : Phase)
  | rightBlockStored (rows : Nat)
  | tableBuilt (kind : JoinKind) (rightRows distinctKeys : Nat)
  | leftBlockProbed (kind : JoinKind) (inputRows outputRows : Nat)
  | unmatchedEmitted (kind : JoinKind) (rows : Nat)
  | joinFailed (kind : JoinKind) (phase : Phase) (cause : Fault)
  | pullAnswered (label : String) (rows : Nat)
  | joinClosed (kind : JoinKind)
  | childAnswered (side : Side) (block : Block)
  deriving Repr, DecidableEq

/-- The level of a log entry; a span is opened around each pull. -/
inductive LogLevel where
  | span
  | trace
  | debug
  | info
  | warn
  deriving Repr, DecidableEq

/-- The name of a log level. -/
def LogLevel.label : LogLevel → String
  | .span => "SPAN"
  | .trace => "TRACE"
  | .debug => "DEBUG"
  | .info => "INFO"
  | .warn => "WARN"

/-- One entry of the log, with its named fields in order. -/
structure LogEntry where
  level : LogLevel
  message : String
  fields : List (String × String)
  deriving Repr, DecidableEq

/--
The log entry of an event; storing right rows is counted but not logged, and what a
watched child reports is neither.
-/
def Event.logEntry? : Event → Option LogEntry
  | .pullOpened kind phase =>
      some ⟨.span, "hash_join", [("join_kind", kind.label), ("state", phase.label)]⟩
  | .rightBlockStored _ => none
  | .tableBuilt kind rightRows distinctKeys =>
      some ⟨.info, "broadcast table built",
        [("join_kind", kind.label), ("right_rows", rightRows.repr),
          ("distinct_keys", distinctKeys.repr)]⟩
  | .leftBlockProbed kind inputRows outputRows =>
      some ⟨.debug, "probed left block",
        [("join_kind", kind.label), ("input_rows", inputRows.repr),
          ("output_rows", outputRows.repr)]⟩
  | .unmatchedEmitted kind rows =>
      some ⟨.debug, "emitted unmatched right rows",
        [("join_kind", kind.label), ("unmatched_right_rows", rows.repr)]⟩
  | .joinFailed kind phase cause =>
      some ⟨.warn, "hash join terminated by error",
        [("join_kind", kind.label), ("state", phase.label),
          ("error", cause.message)]⟩
  | .pullAnswered label rows =>
      some ⟨.trace, "hash join pull", [("block", label), ("rows", rows.repr)]⟩
  | .joinClosed kind =>
      some ⟨.debug, "hash join closed", [("join_kind", kind.label)]⟩
  | .childAnswered _ _ => none

/-- The log of a list of events. -/
def logOf (events : List Event) : List LogEntry := events.filterMap Event.logEntry?

/-- The totals over all joins of a program since they were last reset. -/
structure Counters where
  buildRows : Nat
  probeRows : Nat
  outputRows : Nat
  unmatchedRightRows : Nat
  errors : Nat
  deriving Repr, DecidableEq

namespace Counters

/-- The totals after a reset. -/
def zero : Counters := ⟨0, 0, 0, 0, 0⟩

/-- The totals after one more event. -/
def record (counters : Counters) : Event → Counters
  | .rightBlockStored rows =>
      { counters with buildRows := counters.buildRows + rows }
  | .leftBlockProbed _ inputRows outputRows =>
      { counters with
        probeRows := counters.probeRows + inputRows
        outputRows := counters.outputRows + outputRows }
  | .unmatchedEmitted _ rows =>
      { counters with
        unmatchedRightRows := counters.unmatchedRightRows + rows
        outputRows := counters.outputRows + rows }
  | .joinFailed _ _ _ =>
      { counters with errors := counters.errors + 1 }
  | _ => counters

/-- The totals after a list of events. -/
def recordAll (counters : Counters) (events : List Event) : Counters :=
  events.foldl record counters

end Counters

end StreamJoin
