import StreamJoin.Stream.Collect
import StreamJoin.Stream.Replay

namespace StreamJoin

/-!
# Scripts

A script is a list of blocks.  An operator follows a script if its pulls answer the
blocks of the script one after another, up to the first block that ends the stream
or fails; at the end of the script the stream ends.  What the operator would answer
after that is left open, because whoever reads a stream stops there.

`Operator.Answers` says more: what each pull answers, for ever.
-/

/-- The rows of a list of blocks. -/
def rowsOf (blocks : List Block) : List Row := blocks.flatMap Block.rows

/-- The rows of blocks are those of the first one and of the others. -/
theorem rowsOf_cons (block : Block) (rest : List Block) :
    rowsOf (block :: rest) = block.rows ++ rowsOf rest :=
  List.flatMap_cons

/-- The rows of two lists of blocks are those of one and of the other. -/
theorem rowsOf_append (first later : List Block) :
    rowsOf (first ++ later) = rowsOf first ++ rowsOf later :=
  List.flatMap_append

/-- The blocks of a list that say only that nothing is ready yet. -/
def idlesOf (blocks : List Block) : List Block := blocks.filter Block.isIdle

/-- An idle block is among the idle ones. -/
theorem idlesOf_cons_idle (rest : List Block) :
    idlesOf (.idle :: rest) = .idle :: idlesOf rest := rfl

/-- A data block is not among the idle ones. -/
theorem idlesOf_cons_data (batch : Batch) (rest : List Block) :
    idlesOf (.data batch :: rest) = idlesOf rest := rfl

namespace Operator

variable {State : Type} [Operator State]

/-- An operator answers the blocks of a script, up to the first terminal one. -/
def Follows (state : State) : List Block → Prop
  | [] => (pull state).block = .ended
  | block :: rest =>
      (pull state).block = block ∧
        (block.isTerminal = false → Follows (pull state).next rest)

/-- The state after a number of pulls. -/
def afterPulls : (count : Nat) → State → State
  | 0, state => state
  | count + 1, state => afterPulls count (pull state).next

/-- The block that a pull answers when `count` pulls were made before it. -/
def answer (state : State) (count : Nat) : Block :=
  (pull (afterPulls count state)).block

/-- Successive pulls answer the blocks of a list and then one block for ever. -/
def Answers (state : State) (blocks : List Block) (last : Block) : Prop :=
  ∀ count, answer state count = blocks[count]?.getD last

section Answers

variable {state : State} {block last : Block} {blocks : List Block}

/-- What is answered is the first block and what is answered behind it. -/
theorem answers_cons
    (first : (pull state).block = block)
    (later : Answers (pull state).next blocks last) :
    Answers state (block :: blocks) last := by
  intro count
  cases count with
  | zero => exact first
  | succ count => exact later count

/-- A pull that answers the last block may be the first of those that repeat it. -/
theorem answers_nil
    (first : (pull state).block = last)
    (later : Answers (pull state).next [] last) :
    Answers state [] last := by
  intro count
  cases count with
  | zero => exact first
  | succ count => exact later count

/-- A state that answers one block and stays as it is. -/
theorem answers_nil_of_fixed
    (answered : (pull state).block = last)
    (fixed : (pull state).next = state) :
    Answers state [] last := by
  intro count
  induction count with
  | zero => exact answered
  | succ count inductionHypothesis =>
      rw [answer, afterPulls, fixed]
      exact inductionHypothesis

/-- States whose pulls have the same outcome answer the same. -/
theorem answers_of_same_pull
    {other : State}
    (sameBlock : (pull state).block = (pull other).block)
    (sameNext : (pull state).next = (pull other).next)
    (answers : Answers other blocks last) :
    Answers state blocks last := by
  intro count
  rw [← answers count]
  cases count with
  | zero => exact sameBlock
  | succ count =>
      rw [answer, answer, afterPulls, afterPulls, sameNext]

/-- Whoever reads up to the end of the stream reads the blocks before it. -/
theorem follows_of_answers
    (answers : Answers state blocks .ended)
    (goesOn : ∀ block ∈ blocks, block.isTerminal = false) :
    Follows state blocks := by
  induction blocks generalizing state with
  | nil => exact answers 0
  | cons block rest inductionHypothesis =>
      refine ⟨answers 0, fun _ => ?_⟩
      apply inductionHypothesis
      · intro count
        exact answers (count + 1)
      · intro later member
        exact goesOn later (List.mem_cons_of_mem block member)

end Answers

/-- A script may be cut off where it ends the stream. -/
theorem follows_takeWhile
    {state : State}
    {script : List Block}
    (follows : Follows state script) :
    Follows state (script.takeWhile fun block => !block.isEnd) := by
  induction script generalizing state with
  | nil => exact follows
  | cons block rest inductionHypothesis =>
      obtain ⟨answered, later⟩ := follows
      cases block with
      | ended => exact answered
      | data block =>
          exact ⟨answered, fun goesOn => inductionHypothesis (later goesOn)⟩
      | idle => exact ⟨answered, fun goesOn => inductionHypothesis (later goesOn)⟩
      | failed cause =>
          exact ⟨answered, fun goesOn => inductionHypothesis (later goesOn)⟩

end Operator

/-- A queued source follows what it has queued. -/
theorem Replay.follows_queued (source : Replay) :
    Operator.Follows source source.queued := by
  induction queued : source.queued generalizing source with
  | nil =>
      change source.pull.block = .ended
      simp [Replay.pull, queued]
  | cons block rest inductionHypothesis =>
      have pulled :
          source.pull = ⟨block, ⟨rest, source.pulls + 1, source.closed⟩, []⟩ := by
        simp [Replay.pull, queued]
      refine ⟨congrArg Pull.block pulled, fun _ => ?_⟩
      change Operator.Follows source.pull.next rest
      rw [pulled]
      exact inductionHypothesis _ rfl

/--
Reading an operator whose script has no failure gives the rows of the script, if no
more blocks say that nothing is ready than are allowed.
-/
theorem outcome_of_gather
    {State : Type}
    [Operator State]
    {bound budget stalls : Nat}
    {state : State}
    {blocks : List Block}
    {collected : Collected State}
    (follows : Operator.Follows state blocks)
    (goesOn : ∀ block ∈ blocks, block.isTerminal = false)
    (patient : stalls + (idlesOf blocks).length ≤ bound)
    (finished : gather bound budget stalls state = some collected) :
    collected.outcome = .ok (rowsOf blocks) := by
  induction blocks generalizing budget stalls state collected with
  | nil =>
      cases budget with
      | zero => cases finished
      | succ budget =>
          have ended : (Operator.pull state).block = .ended := follows
          simp only [gather, ended, Option.some.injEq] at finished
          rw [← finished]
          rfl
  | cons block rest inductionHypothesis =>
      obtain ⟨answered, laterFollows⟩ := follows
      have restGoesOn : ∀ later ∈ rest, later.isTerminal = false :=
        fun later member => goesOn later (List.mem_cons_of_mem block member)
      have restFollows := laterFollows (goesOn block List.mem_cons_self)
      cases budget with
      | zero => cases finished
      | succ budget =>
          cases block with
          | ended => cases goesOn .ended List.mem_cons_self
          | failed cause => cases goesOn (.failed cause) List.mem_cons_self
          | data batch =>
              simp only [gather, answered, Option.map_eq_some_iff] at finished
              obtain ⟨later, laterFinished, rfl⟩ := finished
              have restPatient : 0 + (idlesOf rest).length ≤ bound := by
                rw [idlesOf_cons_data] at patient
                omega
              have inRest :=
                inductionHypothesis restFollows restGoesOn restPatient laterFinished
              rw [Collected.after, inRest, rowsOf_cons]
              rfl
          | idle =>
              have restPatient : stalls + 1 + (idlesOf rest).length ≤ bound := by
                rw [idlesOf_cons_idle, List.length_cons] at patient
                omega
              have allowed : ¬ bound < stalls + 1 := by omega
              simp only [gather, answered, allowed, if_false,
                Option.map_eq_some_iff]
                  at finished
              obtain ⟨later, laterFinished, rfl⟩ := finished
              have inRest :=
                inductionHypothesis restFollows restGoesOn restPatient laterFinished
              rw [Collected.after, inRest, rowsOf_cons]
              rfl

/-- The same for an exhaustible operator, which is always read to some outcome. -/
theorem outcome_collect
    {State : Type}
    [Exhaustible State]
    {bound : Nat}
    {state : State}
    {blocks : List Block}
    (follows : Operator.Follows state blocks)
    (goesOn : ∀ block ∈ blocks, block.isTerminal = false)
    (patient : (idlesOf blocks).length ≤ bound) :
    (collect bound state).outcome = .ok (rowsOf blocks) := by
  have fromStart : 0 + (idlesOf blocks).length ≤ bound := by
    rwa [Nat.zero_add]
  exact outcome_of_gather follows goesOn fromStart (Option.some_get _).symm

end StreamJoin
