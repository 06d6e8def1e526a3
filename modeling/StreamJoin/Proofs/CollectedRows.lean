import Mathlib.Data.Nat.Find
import StreamJoin.Proofs.LimitedStreams
import StreamJoin.Proofs.NotedRuns

namespace StreamJoin

/-!
# Where reading stops

Reading an operator is decided by the first of its answers that ends the stream,
fails, or is one idle block too many in a row.  Up to there every answer is read,
with one pull for each, and the outcome is that of the decisive answer; if there is
none, no number of pulls suffices.

The loop counts idle blocks.  Along the stream, `idleRun` is that count and
`decision?` what an answer decides, both behind any count from before; a pull takes
the first answer off both of them, which is the step.  In the end they are put in
terms of the answers themselves.
-/

namespace Operator

variable {State : Type} [Operator State] {state : State} {bound stalls count : Nat}

/--
The number of idle blocks in a row behind some pulls, if `stalls` of them came
before.
-/
def idleRun : (count stalls : Nat) → State → Nat
  | 0, stalls, _ => stalls
  | count + 1, stalls, state =>
      idleRun count (if (pull state).block.isIdle then stalls + 1 else 0)
        (pull state).next

/--
What the answer behind some pulls decides, if the answers before it decided nothing.
-/
def decision? (bound stalls : Nat) (state : State) (count : Nat) :
    Option (Except Fault (List Row)) :=
  match answer state count with
  | .data _ => none
  | .ended => some (.ok (rowsOf (firstAnswers count state)))
  | .failed cause => some (.error cause)
  | .idle =>
      let run := idleRun (count + 1) stalls state
      if bound < run then
        some (.error (stalled (name (afterPulls (count + 1) state)) run))
      else
        none

/-- An idle answer adds one to the count, and any other one starts it anew. -/
theorem idleRun_succ (state : State) (count stalls : Nat) :
    idleRun (count + 1) stalls state =
      if (answer state count).isIdle then idleRun count stalls state + 1
      else 0 := by
  induction count generalizing stalls state with
  | zero => rfl
  | succ count inductionHypothesis =>
      exact inductionHypothesis (pull state).next _

/--
Behind the first answer its rows come in front of what a later answer decides.
-/
theorem decision?_succ (state : State) (bound stalls count : Nat) :
    decision? bound stalls state (count + 1) =
      (decision? bound (if (pull state).block.isIdle then stalls + 1 else 0)
          (pull state).next count).map
        (Except.map ((pull state).block.rows ++ ·)) := by
  have sameAnswer : answer state (count + 1) = answer (pull state).next count := rfl
  unfold decision?
  rw [sameAnswer]
  cases answer (pull state).next count with
  | data batch => rfl
  | ended =>
      simp only [firstAnswers, rowsOf_cons]
      rfl
  | failed cause => rfl
  | idle =>
      let waiting := if (pull state).block.isIdle then stalls + 1 else 0
      have sameRun :
          idleRun (count + 1 + 1) stalls state =
            idleRun (count + 1) waiting (pull state).next := rfl
      by_cases tooMany : bound < idleRun (count + 1) waiting (pull state).next
      · simp only [sameRun, waiting, tooMany, if_true]
        rfl
      · simp only [sameRun, waiting, tooMany, if_false]
        rfl

/--
What reading comes to behind a number of pulls that suffices, and not behind fewer.
-/
def ReadsTo
    (bound stalls : Nat)
    (state : State)
    (pulls : Nat)
    (outcome : Except Fault (List Row)) : Prop :=
  ∀ budget,
    gather bound budget stalls state =
      if budget < pulls then
        none
      else
        some
          ⟨outcome, afterPulls pulls state,
            reports state (List.replicate pulls .pull)⟩

variable {outcome : Except Fault (List Row)}

/-- An answer that decides is the last one that is read. -/
theorem gather_of_decided
    (decided : decision? bound stalls state 0 = some outcome)
    (budget : Nat) :
    gather bound (budget + 1) stalls state =
      some ⟨outcome, (pull state).next, (pull state).events⟩ := by
  have answer_eq : answer state 0 = (pull state).block := rfl
  unfold decision? at decided
  rw [answer_eq] at decided
  cases answered : (pull state).block with
  | data batch => simp [answered] at decided
  | ended =>
      simp only [answered, Option.some.injEq] at decided
      subst decided
      simp only [gather, answered]
      rfl
  | failed cause =>
      simp only [answered, Option.some.injEq] at decided
      subst decided
      simp only [gather, answered]
  | idle =>
      by_cases tooMany : bound < stalls + 1
      · simp only [answered, idleRun, Block.isIdle, if_true, tooMany,
          Option.some.injEq] at decided
        subst decided
        simp only [gather, answered, tooMany, if_true]
        rfl
      · simp [answered, idleRun, Block.isIdle, tooMany] at decided

/-- An answer that decides nothing is read, and the rest behind it. -/
theorem gather_of_undecided
    (undecided : decision? bound stalls state 0 = none)
    (budget : Nat) :
    gather bound (budget + 1) stalls state =
      (gather bound budget (if (pull state).block.isIdle then stalls + 1 else 0)
        (pull state).next).map
          (Collected.after (pull state).events (pull state).block.rows) := by
  have answer_eq : answer state 0 = (pull state).block := rfl
  unfold decision? at undecided
  rw [answer_eq] at undecided
  cases answered : (pull state).block with
  | data batch =>
      simp only [gather, answered]
      rfl
  | ended => simp [answered] at undecided
  | failed cause => simp [answered] at undecided
  | idle =>
      have allowed : ¬ bound < stalls + 1 := by
        intro tooMany
        simp [answered, idleRun, Block.isIdle, tooMany] at undecided
      simp only [gather, answered, allowed, if_false]
      rfl

/-- Reading stops at the first answer that decides. -/
theorem readsTo_of_decided
    (undecided : ∀ earlier < count, decision? bound stalls state earlier = none)
    (decided : decision? bound stalls state count = some outcome) :
    ReadsTo bound stalls state (count + 1) outcome := by
  intro budget
  induction count generalizing stalls state budget outcome with
  | zero =>
      cases budget with
      | zero => rfl
      | succ budget =>
          rw [gather_of_decided decided, if_neg (by omega)]
          exact congrArg some (congrArg (Collected.mk _ _) (List.append_nil _).symm)
  | succ count inductionHypothesis =>
      cases budget with
      | zero => rfl
      | succ budget =>
          rw [decision?_succ, Option.map_eq_some_iff] at decided
          obtain ⟨later, laterDecided, rfl⟩ := decided
          have laterUndecided :
              ∀ earlier < count,
                decision? bound
                  (if (pull state).block.isIdle then stalls + 1 else 0)
                  (pull state).next earlier = none := by
            intro earlier before
            have next := undecided (earlier + 1) (by omega)
            rwa [decision?_succ, Option.map_eq_none_iff] at next
          rw [gather_of_undecided (undecided 0 (by omega)),
            inductionHypothesis laterUndecided laterDecided]
          by_cases tooFew : budget < count + 1
          · rw [if_pos tooFew, if_pos (by omega), Option.map_none]
          · rw [if_neg tooFew, if_neg (by omega), Option.map_some]
            rfl

/-- If no answer decides, reading never stops. -/
theorem gather_eq_none
    (undecided : ∀ count, decision? bound stalls state count = none)
    (budget : Nat) :
    gather bound budget stalls state = none := by
  induction budget generalizing stalls state with
  | zero => rfl
  | succ budget inductionHypothesis =>
      rw [gather_of_undecided (undecided 0), Option.map_eq_none_iff]
      apply inductionHypothesis
      intro count
      have next := undecided (count + 1)
      rwa [decision?_succ, Option.map_eq_none_iff] at next

/--
The answer behind `count` pulls is the last of one more idle one in a row than is
allowed.
-/
def StallsAt (bound : Nat) (state : State) (count : Nat) : Prop :=
  bound ≤ count ∧ ∀ back ≤ bound, answer state (count - back) = .idle

/-- An answer that neither is terminal nor makes a stall. -/
structure PassesAt (bound : Nat) (state : State) (index : Nat) : Prop where
  goesOn : (answer state index).isTerminal = false
  notStalled : ¬ StallsAt bound state index

instance (bound : Nat) (state : State) : DecidablePred (StallsAt bound state) :=
  fun count =>
    inferInstanceAs
      (Decidable
        (bound ≤ count ∧ ∀ back ≤ bound, answer state (count - back) = .idle))

instance (bound : Nat) (state : State) : DecidablePred (PassesAt bound state) :=
  fun index =>
    decidable_of_iff
      ((answer state index).isTerminal = false ∧ ¬ StallsAt bound state index)
      ⟨fun holds => ⟨holds.1, holds.2⟩,
        fun passes => ⟨passes.goesOn, passes.notStalled⟩⟩

/-- A stall ends with an idle answer. -/
theorem StallsAt.isIdle (stalls : StallsAt bound state count) :
    answer state count = .idle :=
  stalls.2 0 (Nat.zero_le bound)

/-- If no idle answer is allowed, each one is a stall. -/
theorem stallsAt_zero_iff (state : State) (count : Nat) :
    StallsAt 0 state count ↔ answer state count = .idle := by
  refine ⟨StallsAt.isIdle, fun idle => ⟨Nat.zero_le count, fun back atMost => ?_⟩⟩
  obtain rfl := Nat.le_zero.mp atMost
  exact idle

/-- One answer alone is no stall if an idle one is allowed. -/
theorem not_stallsAt_succ_zero (state : State) (bound : Nat) :
    ¬ StallsAt (bound + 1) state 0 :=
  fun stalls => Nat.not_succ_le_zero bound stalls.1

/-- A longer stall is a shorter one with an idle answer behind it. -/
theorem stallsAt_succ_iff (state : State) (bound count : Nat) :
    StallsAt (bound + 1) state (count + 1) ↔
      answer state (count + 1) = .idle ∧ StallsAt bound state count := by
  constructor
  · intro stalls
    refine ⟨stalls.isIdle, Nat.le_of_succ_le_succ stalls.1, fun back atMost => ?_⟩
    have idle := stalls.2 (back + 1) (Nat.succ_le_succ atMost)
    rwa [Nat.add_sub_add_right] at idle
  · rintro ⟨lastIdle, enough, idle⟩
    refine ⟨Nat.succ_le_succ enough, fun back atMost => ?_⟩
    cases back with
    | zero => exact lastIdle
    | succ back =>
        rw [Nat.add_sub_add_right]
        exact idle back (Nat.le_of_succ_le_succ atMost)

/-- The count exceeds a bound at an idle answer behind as many idle ones. -/
theorem lt_idleRun_succ_iff (state : State) (bound count : Nat) :
    bound < idleRun (count + 1) 0 state ↔
      answer state count = .idle ∧ bound ≤ idleRun count 0 state := by
  rw [idleRun_succ]
  cases answer state count with
  | idle =>
      exact
        ⟨fun below => ⟨rfl, Nat.le_of_lt_succ below⟩,
          fun ⟨_, atMost⟩ => Nat.lt_succ_of_le atMost⟩
  | data batch => simp [Block.isIdle]
  | ended => simp [Block.isIdle]
  | failed cause => simp [Block.isIdle]

/-- The loop has counted too many idle answers exactly at the end of a stall. -/
theorem lt_idleRun_iff (state : State) (bound count : Nat) :
    bound < idleRun (count + 1) 0 state ↔ StallsAt bound state count := by
  induction bound generalizing count with
  | zero =>
      rw [lt_idleRun_succ_iff, stallsAt_zero_iff, and_iff_left (Nat.zero_le _)]
  | succ bound inductionHypothesis =>
      rw [lt_idleRun_succ_iff]
      cases count with
      | zero => simp [idleRun, not_stallsAt_succ_zero]
      | succ count =>
          rw [stallsAt_succ_iff, ← inductionHypothesis]
          rfl

/-- An answer that passes decides nothing. -/
theorem decision?_of_passesAt (passes : PassesAt bound state count) :
    decision? bound 0 state count = none := by
  obtain ⟨goesOn, notStalled⟩ := passes
  rw [← lt_idleRun_iff] at notStalled
  unfold decision?
  cases answered : answer state count with
  | data batch => rfl
  | ended => simp [answered, Block.isTerminal] at goesOn
  | failed cause => simp [answered, Block.isTerminal] at goesOn
  | idle => exact if_neg notStalled

/-- What an answer decides that does not pass. -/
inductive DecidedAt (bound : Nat) (state : State) (count : Nat) :
    Except Fault (List Row) → Prop where
  | ended (answered : answer state count = .ended) :
      DecidedAt bound state count (.ok (rowsOf (firstAnswers count state)))
  | failed
      {cause : Fault}
      (answered : answer state count = .failed cause) :
      DecidedAt bound state count (.error cause)
  | stalled (stalls : StallsAt bound state count) :
      DecidedAt bound state count
        (.error
          (.inputFailed
            (name (afterPulls (count + 1) state) ++ " made no progress after " ++
              (bound + 1).repr ++ " consecutive NoOp blocks")))

/--
The first stall is found when just one idle answer more than allowed was counted.
-/
theorem idleRun_of_firstStall
    (passes : ∀ earlier < count, PassesAt bound state earlier)
    (stalls : StallsAt bound state count) :
    idleRun (count + 1) 0 state = bound + 1 := by
  have counted := (lt_idleRun_iff state bound count).mpr stalls
  rw [idleRun_succ, stalls.isIdle] at counted ⊢
  simp only [Block.isIdle, if_true] at counted ⊢
  cases count with
  | zero =>
      rw [idleRun] at counted ⊢
      omega
  | succ count =>
      have before := (passes count (Nat.lt_succ_self count)).notStalled
      rw [← lt_idleRun_iff] at before
      omega

/-- The first answer that does not pass decides as `DecidedAt` says. -/
theorem decision?_of_decidedAt
    (passes : ∀ earlier < count, PassesAt bound state earlier)
    (decided : DecidedAt bound state count outcome) :
    decision? bound 0 state count = some outcome := by
  unfold decision?
  cases decided with
  | ended answered => rw [answered]
  | failed answered => rw [answered]
  | stalled stalls =>
      simp only [stalls.isIdle, idleRun_of_firstStall passes stalls,
        Nat.lt_succ_self, if_true]
      rfl

/-- Reading stops at the first answer that does not pass. -/
theorem readsTo_of_decidedAt
    (passes : ∀ earlier < count, PassesAt bound state earlier)
    (decided : DecidedAt bound state count outcome) :
    ReadsTo bound 0 state (count + 1) outcome :=
  readsTo_of_decided
    (fun earlier before => decision?_of_passesAt (passes earlier before))
    (decision?_of_decidedAt passes decided)

/-- Each answer passes or decides. -/
theorem passesAt_or_exists_decidedAt (bound : Nat) (state : State) (count : Nat) :
    PassesAt bound state count ∨
      ∃ outcome, DecidedAt bound state count outcome := by
  by_cases stalls : StallsAt bound state count
  · exact .inr ⟨_, .stalled stalls⟩
  · cases answered : answer state count with
    | data batch => exact .inl ⟨by rw [answered]; rfl, stalls⟩
    | idle => exact .inl ⟨by rw [answered]; rfl, stalls⟩
    | ended => exact .inr ⟨_, .ended answered⟩
    | failed cause => exact .inr ⟨_, .failed answered⟩

/-- An exhaustible operator comes to an answer that decides. -/
theorem exists_firstDecided
    {State : Type}
    [Exhaustible State]
    (bound : Nat)
    (state : State) :
    ∃ count outcome,
      (∀ earlier < count, PassesAt bound state earlier) ∧
        DecidedAt bound state count outcome := by
  classical
  have somewhere : ∃ count, ¬ PassesAt bound state count := by
    by_contra nowhere
    have passes : ∀ count, PassesAt bound state count := by
      intro count
      exact not_not.mp fun notHere => nowhere ⟨count, notHere⟩
    have isSome :=
      StreamJoin.gather_isSome bound (Exhaustible.remaining state + 1) 0 state
        (by omega)
    rw [gather_eq_none fun count => decision?_of_passesAt (passes count)] at isSome
    cases isSome
  obtain ⟨outcome, decided⟩ :=
    (passesAt_or_exists_decidedAt bound state (Nat.find somewhere)).resolve_left
      (Nat.find_spec somewhere)
  exact
    ⟨_, outcome, fun _ before => not_not.mp (Nat.find_min somewhere before),
      decided⟩

/-- An exhaustible operator is read as far as reading goes for any operator. -/
theorem collect_of_readsTo
    {State : Type}
    [Exhaustible State]
    {bound pulls : Nat}
    {state : State}
    {outcome : Except Fault (List Row)}
    (reads : ReadsTo bound 0 state pulls outcome) :
    collect bound state =
      ⟨outcome, afterPulls pulls state,
        reports state (List.replicate pulls .pull)⟩ := by
  have isSome :=
    StreamJoin.gather_isSome bound (Exhaustible.remaining state + 1) 0 state
      (by omega)
  have read := reads (Exhaustible.remaining state + 1)
  split at read
  · rw [read] at isSome
    cases isSome
  · exact Option.get_of_eq_some _ read

end Operator

/--
Reading an operator takes exactly the answers up to the first one that decides: the
end of the stream, behind which all rows before it are handed out; a failure; or the
last of one idle answer more in a row than the bound allows.  Without such an answer
no number of pulls suffices, and an exhaustible operator always comes to one.
-/
theorem collects_to_first_decision :
    (∀ {State : Type} [Operator State] (bound : Nat) (state : State),
      (∀ count outcome,
        (∀ earlier < count, Operator.PassesAt bound state earlier) →
          Operator.DecidedAt bound state count outcome →
            Operator.ReadsTo bound 0 state (count + 1) outcome) ∧
      ((∀ count, Operator.PassesAt bound state count) →
        ∀ budget, gather bound budget 0 state = none)) ∧
    ∀ {State : Type} [Exhaustible State] (bound : Nat) (state : State),
      ∃ count outcome,
        (∀ earlier < count, Operator.PassesAt bound state earlier) ∧
          Operator.DecidedAt bound state count outcome ∧
          collect bound state =
            ⟨outcome, Operator.afterPulls (count + 1) state,
              Operator.reports state (List.replicate (count + 1) .pull)⟩ := by
  refine ⟨fun bound state => ⟨fun count outcome => ?_, fun passes => ?_⟩, ?_⟩
  · exact Operator.readsTo_of_decidedAt
  · exact
      Operator.gather_eq_none fun count =>
        Operator.decision?_of_passesAt (passes count)
  · intro State _ bound state
    obtain ⟨count, outcome, passes, decided⟩ :=
      Operator.exists_firstDecided bound state
    have reads := Operator.readsTo_of_decidedAt passes decided
    exact ⟨count, outcome, passes, decided, Operator.collect_of_readsTo reads⟩

/-- One column of whole numbers. -/
def haltingSchema : Schema := ⟨[⟨"key", .int⟩]⟩

/--
A source with an empty data block between two idle ones, and a stall in front of its
end.
-/
def haltingSource : Replay :=
  .ofBlocks
    [.idle, .ofRows [] haltingSchema, .idle,
      .ofRows [[.int 1], [.int 2]] haltingSchema, .idle, .idle, .ended,
      .failed (.inputFailed "beyond the end")]

/--
A bound of one idle block gives up at the second one in a row, a bound of two does
not.
-/
theorem collects_to_first_decision_sample :
    Operator.ReadsTo 1 0 haltingSource 6
        (.error
          (.inputFailed
            "QUEUED_SOURCE made no progress after 2 consecutive NoOp blocks")) ∧
      Operator.ReadsTo 2 0 haltingSource 7 (.ok [[.int 1], [.int 2]]) := by
  refine ⟨?_, ?_⟩
  · have stalls : Operator.StallsAt 1 haltingSource 5 := by decide
    exact
      (collects_to_first_decision.1 1 haltingSource).1 5 _ (by decide)
        (.stalled stalls)
  · have ended : Operator.answer haltingSource 6 = .ended := by decide
    exact
      (collects_to_first_decision.1 2 haltingSource).1 6 _ (by decide)
        (.ended ended)

end StreamJoin
