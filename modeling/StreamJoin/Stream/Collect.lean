import StreamJoin.Stream.Operator

namespace StreamJoin

/-!
# Collecting the rows of an operator

An operator is read to its end, with a bound on how many blocks in a row may say
that nothing is ready.  A data block, even an empty one, starts that count anew.

`gather` pulls at most as often as a budget allows and is defined for every
operator.  `collect` needs no budget: an exhaustible operator decides within one
pull more than the blocks that it has left, which is `gather_isSome`.
-/

/-- What comes of reading an operator. -/
structure Collected (State : Type) where
  outcome : Except Fault (List Row)
  next : State
  events : List Event

namespace Collected

/-- A result with a further pull in front of it. -/
def after
    {State : Type}
    (events : List Event)
    (rows : List Row)
    (later : Collected State) :
    Collected State :=
  ⟨later.outcome.map (rows ++ ·), later.next, events ++ later.events⟩

end Collected

/-- The fault of an operator that answered too often that nothing is ready. -/
def stalled (name : String) (stalls : Nat) : Fault :=
  .inputFailed
    (name ++ " made no progress after " ++ stalls.repr ++
      " consecutive NoOp blocks")

/--
Read an operator with at most `budget` pulls, `stalls` blocks after the last data
block.  There is no result when the budget does not last.
-/
def gather
    {State : Type}
    [Operator State]
    (bound : Nat) :
    (budget stalls : Nat) → State → Option (Collected State)
  | 0, _, _ => none
  | budget + 1, stalls, state =>
      let pulled := Operator.pull state
      match pulled.block with
      | .ended => some ⟨.ok [], pulled.next, pulled.events⟩
      | .failed cause => some ⟨.error cause, pulled.next, pulled.events⟩
      | .data block =>
          (gather bound budget 0 pulled.next).map
            (Collected.after pulled.events block.rows)
      | .idle =>
          if bound < stalls + 1 then
            let fault := stalled (Operator.name pulled.next) (stalls + 1)
            some ⟨.error fault, pulled.next, pulled.events⟩
          else
            (gather bound budget (stalls + 1) pulled.next).map
              (Collected.after pulled.events [])

/-- A budget above the blocks that are left lasts. -/
theorem gather_isSome
    {State : Type}
    [Exhaustible State]
    (bound budget stalls : Nat)
    (state : State)
    (budgetLasts : Exhaustible.remaining state < budget) :
    (gather bound budget stalls state).isSome = true := by
  induction budget generalizing stalls state with
  | zero => omega
  | succ budget inductionHypothesis =>
      have drops := Exhaustible.remaining_lt state
      simp only [gather]
      cases answer : (Operator.pull state).block with
      | ended => simp
      | failed cause => simp
      | data block =>
          have smaller := drops (by simp [answer, Block.isTerminal])
          simpa using
            inductionHypothesis 0 (Operator.pull state).next (by omega)
      | idle =>
          have smaller := drops (by simp [answer, Block.isTerminal])
          by_cases stallsTooLong : bound < stalls + 1
          · simp [stallsTooLong]
          · simpa [stallsTooLong] using
              inductionHypothesis (stalls + 1) (Operator.pull state).next (by omega)

/-- Read an exhaustible operator to its end, to a failure or to too long a stall. -/
def collect
    {State : Type}
    [Exhaustible State]
    (bound : Nat)
    (state : State) :
    Collected State :=
  (gather bound (Exhaustible.remaining state + 1) 0 state).get
    (gather_isSome bound (Exhaustible.remaining state + 1) 0 state (by omega))

end StreamJoin
