import StreamJoin.Schema.Basic

namespace StreamJoin

/-!
# Blocks

Operators hand out their rows in blocks.  Besides data there are three control
blocks: the end of the stream, a block that says only that nothing is ready yet,
and a failure.  The end and a failure are terminal.
-/

/-- Rows together with the schema that describes them. -/
structure Batch where
  rows : List Row
  schema : Schema
  deriving Repr, DecidableEq

namespace Batch

/-- The number of rows. -/
def size (block : Batch) : Nat := block.rows.length

/-- Whether a block holds no row. -/
def isEmpty (block : Batch) : Bool := block.rows.isEmpty

end Batch

/-- What an operator answers to one pull. -/
inductive Block where
  | data (block : Batch)
  | ended
  | idle
  | failed (cause : Fault)
  deriving Repr, DecidableEq

namespace Block

/-- A data block from its rows and their schema. -/
def ofRows (rows : List Row) (schema : Schema) : Block := .data ⟨rows, schema⟩

/-- Whether a block carries data. -/
def isData : Block → Bool
  | .data _ => true
  | _ => false

/-- Whether a block is the end of the stream. -/
def isEnd : Block → Bool
  | .ended => true
  | _ => false

/-- Whether a block says only that nothing is ready yet. -/
def isIdle : Block → Bool
  | .idle => true
  | _ => false

/-- Whether a block is a failure. -/
def isFailed : Block → Bool
  | .failed _ => true
  | _ => false

/-- Whether nothing but the same block may follow. -/
def isTerminal : Block → Bool
  | .ended => true
  | .failed _ => true
  | _ => false

/-- The rows of a block; control blocks carry none. -/
def rows : Block → List Row
  | .data block => block.rows
  | _ => []

/-- The cause carried by a failure. -/
def cause? : Block → Option Fault
  | .failed cause => some cause
  | _ => none

/-- The word for a kind of block in the log. -/
def label : Block → String
  | .data _ => "data"
  | .ended => "end_of_stream"
  | .idle => "noop"
  | .failed _ => "error"

end Block

end StreamJoin
