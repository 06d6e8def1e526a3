import StreamJoin.Proofs.KeyReads
import StreamJoin.Proofs.SpokenBlocks
import StreamJoin.Proofs.UnlimitedJoins
import StreamJoin.Proofs.WholeRun

namespace StreamJoin

/-!
# Streams that exceed a row limit

Whether a join is refused for its row limit is a property of its right stream alone:
of the answers that the right child gives when it is pulled again and again.  The
stream exceeds the limit at a block with which the right rows up to there are more
than the limit, behind blocks that all can be stored.

A join takes the answers of its right child in just this order.  Where it stands in
the streams of its children tells whether it came to such a block.
-/

namespace Operator

variable {State : Type} [Operator State] {state : State}

/-- There are as many first answers as were asked for. -/
theorem length_firstAnswers (state : State) (count : Nat) :
    (firstAnswers count state).length = count := by
  induction count generalizing state with
  | zero => rfl
  | succ count inductionHypothesis =>
      exact congrArg (· + 1) (inductionHypothesis (pull state).next)

/-- One more of the first answers is the next one, at the end. -/
theorem firstAnswers_succ (state : State) (count : Nat) :
    firstAnswers (count + 1) state =
      firstAnswers count state ++ [answer state count] := by
  induction count generalizing state with
  | zero => rfl
  | succ count inductionHypothesis =>
      exact
        congrArg ((pull state).block :: ·) (inductionHypothesis (pull state).next)

/-- One more pull is a pull behind the others. -/
theorem afterPulls_succ (state : State) (count : Nat) :
    afterPulls (count + 1) state = (pull (afterPulls count state)).next := by
  induction count generalizing state with
  | zero => rfl
  | succ count inductionHypothesis => exact inductionHypothesis (pull state).next

/-- Among more answers each one stands behind those that were given before it. -/
theorem exists_firstAnswers_of_lt
    (state : State)
    {count later : Nat}
    (earlier : count < later) :
    ∃ rest,
      firstAnswers later state =
        firstAnswers count state ++ answer state count :: rest := by
  obtain ⟨more, rfl⟩ := Nat.exists_eq_add_of_lt earlier
  induction more with
  | zero => exact ⟨[], firstAnswers_succ state count⟩
  | succ more inductionHypothesis =>
      obtain ⟨rest, split⟩ := inductionHypothesis (by omega)
      refine ⟨rest ++ [answer state (count + more + 1)], ?_⟩
      have longer := firstAnswers_succ state (count + more + 1)
      rw [split, List.append_assoc] at longer
      exact longer

/-- An answer is among the first ones as soon as it came earlier. -/
theorem answer_mem_firstAnswers
    {count later : Nat}
    (earlier : count < later) :
    answer state count ∈ firstAnswers later state := by
  obtain ⟨rest, split⟩ := exists_firstAnswers_of_lt state earlier
  rw [split]
  exact List.mem_append_right _ List.mem_cons_self

/-- The last of some first answers is the answer to the last pull. -/
theorem exists_count_of_append_eq
    {earlier : List Block}
    {block : Block}
    {count : Nat}
    (split : earlier ++ [block] = firstAnswers count state) :
    ∃ before, count = before + 1 ∧ earlier = firstAnswers before state ∧
      block = answer state before := by
  cases count with
  | zero => simp [firstAnswers] at split
  | succ before =>
      rw [firstAnswers_succ] at split
      obtain ⟨sameEarlier, sameBlock⟩ := List.append_singleton_inj.mp split
      exact ⟨before, rfl, sameEarlier, sameBlock⟩

end Operator

/--
A noted operator that was only pulled, since it was a given state, and its answers
noted.
-/
def Noted.PulledFrom
    {State : Type}
    [Operator State]
    (noted : Noted State)
    (state : State) : Prop :=
  ∃ count,
    noted = ⟨Operator.afterPulls count state, Operator.firstAnswers count state⟩

/-- A noted operator that was only pulled is so behind one more pull. -/
theorem Noted.pulledFrom_pull
    {State : Type}
    [Operator State]
    {state : State}
    {noted : Noted State}
    (pulledFrom : noted.PulledFrom state) :
    (Operator.pull noted).next.PulledFrom state := by
  obtain ⟨count, rfl⟩ := pulledFrom
  refine ⟨count + 1, ?_⟩
  rw [Operator.afterPulls_succ, Operator.firstAnswers_succ]
  rfl

/-- A block that neither ends nor fails a stream, with rows of a given width. -/
structure Block.Admissible (width : Nat) (block : Block) : Prop where
  goesOn : block.isTerminal = false
  widths : ∀ row ∈ block.rows, row.length = width

/--
An operator whose answer behind a number of pulls is a data block with which its
rows are more than a limit, all answers before it being admissible.
-/
structure Operator.ExceedsAt
    {State : Type}
    [Operator State]
    (width limit : Nat)
    (state : State)
    (count : Nat) : Prop where
  admissible : ∀ block ∈ firstAnswers count state, block.Admissible width
  exceeds :
    ∃ batch, answer state count = .data batch ∧
      limit < (rowsOf (firstAnswers count state)).length + batch.size

namespace JoinPlan

variable {plan : JoinPlan} {before : List Row} {block : Block} {limit : Nat}
  {cause : Fault}

/-- A right block that passes is admissible. -/
theorem admissible_of_noFault
    (goesOn : block.isEnd = false)
    (noFault : plan.rightFault? before block = none) :
    block.Admissible plan.rightWidth := by
  cases block with
  | ended => cases goesOn
  | failed cause => cases noFault
  | idle => exact ⟨rfl, nofun⟩
  | data batch =>
      obtain ⟨_, rightWidths⟩ := Option.or_eq_none_iff.mp noFault
      exact ⟨rfl, length_of_checkWidths (checkWidths_of_noFault rightWidths)⟩

/-- An admissible right block can fail for the row limit only. -/
theorem limitFault?_of_admissible
    (admissible : block.Admissible plan.rightWidth)
    (fails : plan.rightFault? before block = some cause) :
    ∃ batch, block = .data batch ∧
      plan.limitFault? (before.length + batch.size) = some cause := by
  cases block with
  | ended => cases fails
  | failed other => cases admissible.goesOn
  | idle => cases fails
  | data batch =>
      have rightWidths : widthFault? .right plan.rightWidth batch.rows = none :=
        widthFault?_of_widths admissible.widths
      rw [rightFault?, rightWidths, Option.or_none] at fails
      exact ⟨batch, rfl, fails⟩

/-- With a limit, more rows than that are a failure. -/
theorem limitFault?_eq
    (limited : plan.options.rowLimit = some limit)
    (rows : Nat) :
    plan.limitFault? rows =
      if limit < rows then some (.rowLimitExceeded limit) else none := by
  simp only [limitFault?, limited]

/-- A failure of the limit tells that there are more rows, and names the limit. -/
theorem limitFault?_cases
    (limited : plan.options.rowLimit = some limit)
    {rows : Nat}
    (fails : plan.limitFault? rows = some cause) :
    limit < rows ∧ cause = .rowLimitExceeded limit := by
  rw [limitFault?_eq limited] at fails
  split at fails
  · next exceeds => exact ⟨exceeds, (Option.some.inj fails).symm⟩
  · cases fails

/-- The row limit wins over the widths of a block. -/
theorem rightFault?_of_exceeds
    (limited : plan.options.rowLimit = some limit)
    {batch : Batch}
    (exceeds : limit < before.length + batch.size) :
    plan.rightFault? before (.data batch) = some (.rowLimitExceeded limit) := by
  rw [rightFault?, limitFault?_eq limited, if_pos exceeds, Option.some_or]

/-- Right data that fail with the failure of the row limit exceed it. -/
theorem exceeds_of_rightFault
    (limited : plan.options.rowLimit = some limit)
    {batch : Batch}
    (fails :
      plan.rightFault? before (.data batch) = some (.rowLimitExceeded limit)) :
    limit < before.length + batch.size := by
  rcases Option.or_eq_some_iff.mp fails with overLimit | ⟨_, wrong⟩
  · exact (limitFault?_cases limited overLimit).1
  · obtain ⟨_, _, isWidth⟩ := Option.map_eq_some_iff.mp wrong
    cases isWidth

variable {Right : Type} [Operator Right] {right : Right} {count passed : Nat}

/--
Blocks that pass are those of a stream up to at most where it exceeds the limit.
-/
theorem le_of_passes
    (limited : plan.options.rowLimit = some limit)
    (exceeds : Operator.ExceedsAt plan.rightWidth limit right count)
    (passes :
      plan.scanRight [] (Operator.firstAnswers passed right) =
        ⟨Operator.firstAnswers passed right, none⟩) :
    passed ≤ count := by
  by_contra further
  obtain ⟨rest, split⟩ :=
    Operator.exists_firstAnswers_of_lt right (Nat.lt_of_not_le further)
  obtain ⟨batch, answered, overLimit⟩ := exceeds.exceeds
  rw [split, answered] at passes
  obtain ⟨_, noFault⟩ := passes_of_append passes
  cases noFault.symm.trans (rightFault?_of_exceeds limited overLimit)

end JoinPlan

namespace JoinRecord

variable {Right : Type} [Operator Right] {right : Right}
  {count received limit : Nat}
variable {record : JoinRecord}

/-- A join that was refused for its limit has met a block that exceeds it. -/
theorem Course.exceedsAt_of_refused
    (course : record.Course)
    (rights_eq : record.rights = Operator.firstAnswers received right)
    (limited : record.state.plan.options.rowLimit = some limit)
    (refused : record.RefusedForLimit limit) :
    ∃ count, Operator.ExceedsAt record.state.plan.rightWidth limit right count := by
  obtain ⟨failed, stored, batch, atData⟩ := refused
  obtain ⟨_, passes, fails, _⟩ := course.of_failedAtData failed atData
  obtain ⟨before, _, rfl, answered⟩ :=
    Operator.exists_count_of_append_eq (atData.symm.trans rights_eq)
  refine
    ⟨before, ?_, batch, answered.symm, JoinPlan.exceeds_of_rightFault limited fails⟩
  intro block member
  obtain ⟨first, later, split⟩ := List.append_of_mem member
  rw [split] at passes
  obtain ⟨goesOn, noFault⟩ := passes_of_append passes
  exact JoinPlan.admissible_of_noFault goesOn noFault

/--
Over a stream that exceeds the limit a join never comes to its left child.  It is
refused for the limit, or still at the blocks before the one that exceeds it.
-/
theorem Course.refused_of_exceedsAt
    (course : record.Course)
    (rights_eq : record.rights = Operator.firstAnswers received right)
    (limited : record.state.plan.options.rowLimit = some limit)
    (exceeds : Operator.ExceedsAt record.state.plan.rightWidth limit right count) :
    record.lefts = [] ∧
      (record.RefusedForLimit limit ∨
        record.state.phase.isBeforeProbing = true ∧
          record.rights.length ≤ count) := by
  obtain ⟨batch, answered, overLimit⟩ := exceeds.exceeds
  cases course with
  | building beforeProbing passes =>
      obtain rfl := rights_eq
      refine ⟨rfl, .inr ⟨beforeProbing, ?_⟩⟩
      rw [Operator.length_firstAnswers]
      exact JoinPlan.le_of_passes limited exceeds passes
  | streaming _ passes =>
      obtain ⟨before, _, rfl, ended⟩ := Operator.exists_count_of_append_eq rights_eq
      rcases Nat.lt_or_eq_of_le (JoinPlan.le_of_passes limited exceeds passes) with
        lt | rfl
      · cases (exceeds.admissible _
          (ended ▸ Operator.answer_mem_firstAnswers lt)).goesOn
      · cases ended.trans answered
  | @refused state stored _ block cause failed passes fails =>
      obtain ⟨before, _, rfl, received⟩ :=
        Operator.exists_count_of_append_eq rights_eq
      refine ⟨rfl, .inl ?_⟩
      -- A block before the one that exceeds the limit is admissible, so it too can
      -- fail for the limit only.
      rcases Nat.lt_or_eq_of_le (JoinPlan.le_of_passes limited exceeds passes) with
        lt | rfl
      · have admissible :=
          exceeds.admissible block (received ▸ Operator.answer_mem_firstAnswers lt)
        obtain ⟨other, rfl, limitFails⟩ :=
          JoinPlan.limitFault?_of_admissible admissible fails
        obtain ⟨_, rfl⟩ := JoinPlan.limitFault?_cases limited limitFails
        exact ⟨failed, _, other, rfl⟩
      · obtain rfl : block = .data batch := received.trans answered
        have limitFails := JoinPlan.rightFault?_of_exceeds limited overLimit
        obtain rfl : cause = .rowLimitExceeded limit :=
          Option.some.inj (fails.symm.trans limitFails)
        exact ⟨failed, _, batch, rfl⟩

end JoinRecord

end StreamJoin
