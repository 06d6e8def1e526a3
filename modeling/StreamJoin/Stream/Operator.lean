import StreamJoin.Event
import StreamJoin.Stream.Outline

namespace StreamJoin

/-!
# Operators

An operator is pulled for one block at a time and can be closed.  It is described
by its state: a pull gives the block, the next state and the events on the way.

Two laws bound what an operator hands out before it ends or fails.  A *drainable*
operator never hands out data blocks for ever without a pause, so that a loop which
takes its data until something else comes is sure to end.  An *exhaustible* one
hands out only finitely many blocks in all, so that reading it to its end is sure
to end too.  Neither law says what an operator does after it ended or failed.
-/

/-- What comes of one pull. -/
structure Pull (State : Type) where
  block : Block
  next : State
  events : List Event

/-- What comes of closing an operator. -/
structure Closing (State : Type) where
  next : State
  events : List Event

/-- An operator, given by what its states answer. -/
class Operator (State : Type) where
  outline : State → Outline
  pull : State → Pull State
  close : State → Closing State

/-- An operator that never hands out data blocks for ever without a pause. -/
class Drainable (State : Type) extends Operator State where
  burst : State → Nat
  burst_lt : ∀ state : State,
    (pull state).block.isData = true → burst (pull state).next < burst state

/-- An operator that hands out only finitely many blocks before it ends or fails. -/
class Exhaustible (State : Type) extends Drainable State where
  remaining : State → Nat
  remaining_lt : ∀ state : State,
    (pull state).block.isTerminal = false →
      remaining (pull state).next < remaining state

/-- The name of an operator. -/
def Operator.name {State : Type} [Operator State] (state : State) : String :=
  (Operator.outline state).name

end StreamJoin
