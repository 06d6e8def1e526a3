import StreamJoin.Stream.Operator

namespace StreamJoin

/-!
# Queued sources

A queued source is a leaf that replays a list of blocks.  When the list is used up
it answers the end of the stream for ever.  It counts its pulls and remembers
whether it was closed; closing drops what is still queued.
-/

/-- A leaf that replays a list of blocks. -/
structure Replay where
  queued : List Block
  pulls : Nat
  closed : Bool
  deriving Repr, DecidableEq

namespace Replay

/-- A source that was never pulled. -/
def ofBlocks (blocks : List Block) : Replay := ⟨blocks, 0, false⟩

/-- A source of one data block for each batch of rows, with the end behind them. -/
def ofBatches (schema : Schema) (batches : List (List Row)) : Replay :=
  ofBlocks (batches.map (fun rows => Block.ofRows rows schema) ++ [.ended])

/-- Hand out the first queued block. -/
def pull (source : Replay) : Pull Replay :=
  match source.queued with
  | [] =>
      ⟨.ended, { source with pulls := source.pulls + 1 }, []⟩
  | block :: rest =>
      ⟨block, { source with queued := rest, pulls := source.pulls + 1 }, []⟩

/-- Drop what is queued. -/
def close (source : Replay) : Closing Replay :=
  ⟨{ source with queued := [], closed := true }, []⟩

/-- Whatever a source hands out before its end was queued. -/
theorem length_queued_pull_lt
    (source : Replay)
    (handedOut : source.pull.block ≠ .ended) :
    source.pull.next.queued.length < source.queued.length := by
  unfold pull at handedOut ⊢
  cases queued : source.queued with
  | nil => simp [queued] at handedOut
  | cons block rest => simp

instance : Exhaustible Replay where
  outline _ := .node "QUEUED_SOURCE" []
  pull := pull
  close := close
  burst source := source.queued.length
  burst_lt source isData := by
    apply length_queued_pull_lt
    intro isEnd
    simp [isEnd, Block.isData] at isData
  remaining source := source.queued.length
  remaining_lt source notTerminal := by
    apply length_queued_pull_lt
    intro isEnd
    simp [isEnd, Block.isTerminal] at notTerminal

end Replay

end StreamJoin
