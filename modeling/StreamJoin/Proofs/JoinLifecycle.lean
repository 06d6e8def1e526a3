import StreamJoin.Proofs.JoinInvariant
import StreamJoin.Proofs.PlanChecks
import StreamJoin.Proofs.PullDiscipline
import StreamJoin.Residual.Comparison

namespace StreamJoin

/-!
# The life of a join

A join goes from phase to phase in one direction.  It leaves its first phase in the
pull that pulls a child for the first time, and it fails while it builds or probes,
which may be in that same pull.  Together with the invariant of the states this is
what the guards in front of a pull rely on.
-/

namespace Phase

/--
The place of a phase in the life of a join; nothing comes after the end or a
failure.
-/
def rank : Phase → Nat
  | .fresh => 0
  | .building => 1
  | .probing => 2
  | .sweeping
  | .done
  | .failed _ => 3

/--
A later phase of the same join: the same one or one that comes after it.  A failure
is never left or exchanged for another one, and only a join that was still running
fails.
-/
structure Forward (earlier later : Phase) : Prop where
  advances : later = earlier ∨ earlier.rank < later.rank
  staysFailed : ∀ cause, earlier = .failed cause → later = earlier
  failsWhileRunning :
    ∀ cause, later = .failed cause → later ≠ earlier →
      earlier = .fresh ∨ earlier = .building ∨ earlier = .probing

namespace Forward

variable {first second third : Phase}

/-- To advance, or to stay, is to move forward. -/
theorem of_advances (advances : second = first ∨ first.rank < second.rank) :
    first.Forward second where
  advances := advances
  staysFailed := by
    rintro cause rfl
    rcases advances with same | below
    · exact same
    · cases second <;> simp [rank] at below
  failsWhileRunning := by
    rintro cause rfl differs
    have below := advances.resolve_left differs
    cases first <;> simp_all [rank]

/-- A phase that stays moves forward. -/
theorem refl (phase : Phase) : phase.Forward phase := of_advances (.inl rfl)

/-- To move forward twice is to move forward. -/
theorem trans (earlier : first.Forward second) (later : second.Forward third) :
    first.Forward third := by
  apply of_advances
  rcases earlier.advances with rfl | below
  · exact later.advances
  · rcases later.advances with rfl | above
    · exact .inr below
    · exact .inr (Nat.lt_trans below above)

end Forward

end Phase

/-- The phase and the cause that the failure of a join reports. -/
def Event.failure? : Event → Option (Phase × Fault)
  | .joinFailed _ phase cause => some (phase, cause)
  | _ => none

/-- The failures that some events report. -/
def failuresOf (events : List Event) : List (Phase × Fault) :=
  events.filterMap Event.failure?

/-- The failures of two lists of events are those of one and of the other. -/
theorem failuresOf_append (first later : List Event) :
    failuresOf (first ++ later) = failuresOf first ++ failuresOf later :=
  List.filterMap_append

namespace JoinState

variable {state : JoinState} {block : Block}

/--
A right block leaves the join building, turns it to probing, or fails it while it
builds.
-/
theorem receiveRight_cases (building : state.phase = .building) :
    (((state.receiveRight block).state.phase = .building ∨
          (state.receiveRight block).state.phase = .probing) ∧
        failuresOf (state.receiveRight block).events = []) ∨
      ∃ cause, (state.receiveRight block).state.phase = .failed cause ∧
        (state.receiveRight block).answer? = some (.failed cause) ∧
        failuresOf (state.receiveRight block).events = [(.building, cause)] := by
  cases block with
  | idle => exact .inl ⟨.inl building, rfl⟩
  | ended => exact .inl ⟨.inr rfl, rfl⟩
  | failed cause => exact .inr ⟨cause, rfl, rfl, by rw [← building]; rfl⟩
  | data batch =>
      simp only [receiveRight]
      split
      · next fault _ => exact .inr ⟨fault, rfl, rfl, by rw [← building]; rfl⟩
      · next accepted =>
          exact .inl ⟨.inl ((phase_store accepted).trans building), rfl⟩

/-- A left block leaves the join probing, ends it, or fails it while it probes. -/
theorem receiveLeft_cases (probing : state.phase = .probing) :
    (((state.receiveLeft block).state.phase = .probing ∨
          (state.receiveLeft block).state.phase = .done) ∧
        failuresOf (state.receiveLeft block).events = []) ∨
      ∃ cause, (state.receiveLeft block).state.phase = .failed cause ∧
        failuresOf (state.receiveLeft block).events = [(.probing, cause)] := by
  cases block with
  | idle => exact .inl ⟨.inl probing, rfl⟩
  | failed cause => exact .inr ⟨cause, rfl, by rw [← probing]; rfl⟩
  | ended =>
      simp only [receiveLeft, finishProbe]
      split
      · exact .inl ⟨.inr rfl, rfl⟩
      · exact .inl ⟨.inr rfl, rfl⟩
  | data batch =>
      simp only [receiveLeft, probe]
      split
      · next fault _ => exact .inr ⟨fault, rfl, by rw [← probing]; rfl⟩
      · split
        · next fault _ => exact .inr ⟨fault, rfl, by rw [← probing]; rfl⟩
        · exact .inl ⟨.inl probing, rfl⟩

end JoinState

namespace BroadcastJoin

section Steps

variable {Left Right : Type}

/--
A pull that moves a join forward, behind its first phase, and that reports a failure
of the join, if there is one, as happening while the join builds or probes.
-/
structure Steps
    (join : BroadcastJoin Left Right)
    (pulled : Pull (BroadcastJoin Left Right)) : Prop where
  forward : join.state.phase.Forward pulled.next.state.phase
  begun : pulled.next.state.phase ≠ .fresh
  failure :
    ∀ cause, pulled.next.state.phase = .failed cause →
      ∃ phase, (phase = .building ∨ phase = .probing) ∧
        failuresOf pulled.events = [(phase, cause)]

/-- The frame of a pull reports no failure. -/
theorem failuresOf_framed
    (join : BroadcastJoin Left Right)
    (pulled : Pull (BroadcastJoin Left Right)) :
    failuresOf (join.framed pulled).events = failuresOf pulled.events := by
  have opened :
      failuresOf (join.framed pulled).events =
        failuresOf
          (pulled.events ++
            [.pullAnswered pulled.block.label pulled.block.rows.length]) := rfl
  rw [opened, failuresOf_append]
  exact List.append_nil _

/--
Draining the right child moves a join from its first phase to building and on.
-/
theorem forward_behindRight
    [Drainable Right]
    {join : BroadcastJoin Left Right}
    (beforeProbing : join.state.phase.isBeforeProbing = true) :
    join.state.phase.Forward join.behindRight.state.phase ∧
      join.behindRight.state.phase ≠ .fresh := by
  have building : join.state.beginBuild.phase = .building := rfl
  have behind :
      join.behindRight.state =
        (join.state.beginBuild.receiveRight
          (Operator.pull join.right).block).state := rfl
  rw [behind]
  rcases JoinState.receiveRight_cases building with
      ⟨goesOn | turned, _⟩ | ⟨cause, failed, _, _⟩
  · rw [goesOn]
    refine ⟨.of_advances ?_, nofun⟩
    cases position : join.state.phase <;>
      simp_all [Phase.isBeforeProbing, Phase.rank]
  · rw [turned]
    refine ⟨.of_advances (.inr ?_), nofun⟩
    cases position : join.state.phase <;>
      simp_all [Phase.isBeforeProbing, Phase.rank]
  · rw [failed]
    refine ⟨.of_advances (.inr ?_), nofun⟩
    cases position : join.state.phase <;>
      simp_all [Phase.isBeforeProbing, Phase.rank]

/-- Taking a left block is a step of the lifecycle. -/
theorem steps_pullLeft
    [Operator Left]
    {join : BroadcastJoin (Watched .left Left) Right}
    (probing : join.state.phase = .probing) :
    Steps join join.pullLeft := by
  have eventsOfLeft :
      failuresOf
          ((Operator.pull join.left).events ++
            (join.state.receiveLeft (Operator.pull join.left).block).events) =
        failuresOf
          (join.state.receiveLeft (Operator.pull join.left).block).events := by
    rw [Watched.events_pull]
    rfl
  rw [pullLeft_eq_receive]
  rcases JoinState.receiveLeft_cases probing with
      ⟨goesOn | ended, noFailure⟩ | ⟨cause, failed, reported⟩
  · exact {
      forward := by
        rw [probing]
        exact .of_advances (.inl goesOn)
      begun := by simp [goesOn]
      failure := by simp [goesOn]
    }
  · exact {
      forward := by
        rw [probing]
        exact .of_advances (.inr (by simp [ended, Phase.rank]))
      begun := by simp [ended]
      failure := by simp [ended]
    }
  · exact {
      forward := by
        rw [probing]
        exact .of_advances (.inr (by simp [failed, Phase.rank]))
      begun := by simp [failed]
      failure := fun other otherFailed => by
        obtain rfl : cause = other :=
          Phase.failed.inj (failed.symm.trans otherFailed)
        exact ⟨.probing, .inr rfl, eventsOfLeft.trans reported⟩
    }

/-- A right child that is watched reports no failure of its own. -/
theorem failuresOf_rightEvents
    [Operator Right]
    (join : BroadcastJoin Left (Watched .right Right)) :
    failuresOf join.rightEvents = failuresOf join.receivedRight.events := by
  rw [rightEvents, Watched.events_pull]
  rfl

end Steps

section Requests

variable {Left Right : Type} [Operator Left] [Operator Right]
variable {join : BroadcastJoin (Watched .left Left) (Watched .right Right)}

/-- Going on is a step of the lifecycle. -/
theorem steps_advance (active : join.state.isActive = true) :
    Steps join join.advance := by
  apply advance_induction (motive := Steps) _ _ _ active
  · exact fun join _ probing => steps_pullLeft probing
  · intro join answered _ beforeProbing answers
    obtain ⟨forward, begun⟩ := forward_behindRight beforeProbing
    refine ⟨forward, begun, fun cause failed => ⟨.building, .inl rfl, ?_⟩⟩
    have building : join.state.beginBuild.phase = .building := rfl
    rcases JoinState.receiveRight_cases building with
        ⟨goesOn | turned, _⟩ | ⟨other, otherFailed, _, reported⟩
    · cases goesOn.symm.trans failed
    · cases turned.symm.trans failed
    · obtain rfl : other = cause := Phase.failed.inj (otherFailed.symm.trans failed)
      exact (failuresOf_rightEvents join).trans reported
  · intro join _ beforeProbing goesOn later
    obtain ⟨forward, _⟩ := forward_behindRight beforeProbing
    have noFailure : failuresOf join.rightEvents = [] := by
      rw [failuresOf_rightEvents]
      have building : join.state.beginBuild.phase = .building := rfl
      rcases JoinState.receiveRight_cases building with
          ⟨_, noFailure⟩ | ⟨_, _, answers, _⟩
      · exact noFailure
      · cases answers.symm.trans goesOn
    refine ⟨forward.trans later.forward, later.begun, ?_⟩
    simpa only [Pull.after, failuresOf_append, noFailure, List.nil_append] using
      later.failure

/-- A pull that is let through moves the join forward. -/
theorem steps_pull (active : join.state.isActive = true) :
    Steps join (Operator.pull join) := by
  have pulled : Operator.pull join = _ := pull_of_isActive active
  have steps := steps_advance active
  rw [pulled]
  refine ⟨steps.forward, steps.begun, ?_⟩
  rw [failuresOf_framed]
  exact steps.failure

/-- Each request leaves the join where it was or moves it forward. -/
theorem forward_next (call : Call) :
    join.state.phase.Forward (Operator.next join call).state.phase := by
  cases call with
  | close =>
      have samePhase : (Operator.next join .close).state.phase = join.state.phase :=
        (close_settled join).1
      exact .of_advances (.inl samePhase)
  | pull =>
      cases active : join.state.isActive with
      | true => exact (steps_pull active).forward
      | false =>
          have unchanged : Operator.next join .pull = join :=
            (pull_of_inactive active).2
          exact
            .of_advances
              (.inl (congrArg (fun final => final.state.phase) unchanged))

/-- Any requests move a join forward. -/
theorem forward_afterCalls (calls : List Call) :
    join.state.phase.Forward (Operator.afterCalls join calls).state.phase := by
  induction calls generalizing join with
  | nil => exact .refl _
  | cons call rest inductionHypothesis =>
      exact (forward_next call).trans inductionHypothesis

/-- No child was pulled. -/
def NoPulls (moments : List Moment) : Prop :=
  ∀ side block, .pulled side block ∉ moments

/-- As long as a join stays in its first phase it pulls none of its children. -/
theorem noPulls_moments
    (call : Call)
    (staysFresh : (Operator.next join call).state.phase = .fresh) :
    NoPulls (Operator.moments join call) := by
  cases call with
  | pull =>
      cases active : join.state.isActive with
      | true => exact absurd staysFresh (steps_pull active).begun
      | false =>
          intro side block pulled
          have noMoments : momentsOf (Operator.pull join).events = [] :=
            momentsOf_pull_of_inactive active
          simp [Operator.moments, noMoments] at pulled
  | close =>
      intro side block pulled
      have noMoments : momentsOf (Operator.close join).events = [] :=
        (close_inactive join).2
      simp [Operator.moments, noMoments] at pulled

/-- As long as a join is in its first phase no request has pulled a child. -/
theorem noPulls_history
    (calls : List Call)
    (staysFresh : (Operator.afterCalls join calls).state.phase = .fresh) :
    NoPulls (Operator.history join calls) := by
  induction calls generalizing join with
  | nil => exact fun side block pulled => nomatch pulled
  | cons call rest inductionHypothesis =>
      have freshNext : (Operator.next join call).state.phase = .fresh := by
        have forward : (Operator.next join call).state.phase.Forward _ :=
          forward_afterCalls rest
        rcases forward.advances with same | below
        · exact same.symm.trans staysFresh
        · simp [show (Operator.afterCalls (Operator.next join call)
            rest).state.phase = .fresh from staysFresh, Phase.rank] at below
      intro side block pulled
      rcases List.mem_append.mp pulled with now | later
      · exact noPulls_moments call freshNext side block now
      · exact inductionHypothesis staysFresh side block later

/--
Whatever is asked of an accepted join, and in whatever order, it stays well-formed,
with the plan that was described; as long as it is in its first phase no child was
pulled; later requests only move it forward; and a pull that fails it does so while
the join builds or probes.
-/
theorem wellFormed_throughout
    {left : Watched .left Left}
    {right : Watched .right Right}
    {spec : JoinSpec}
    {options : JoinOptions}
    {order : BucketOrder}
    (accepted : ofSpec left right spec options order = .ok join)
    (before later : List Call) :
    let reached := Operator.afterCalls join before
    reached.state.WellFormed ∧
      reached.state.plan.Describes spec options order ∧
      (reached.state.phase = .fresh → NoPulls (Operator.history join before)) ∧
      reached.state.phase.Forward (Operator.afterCalls reached later).state.phase ∧
      ∀ cause, reached.state.phase.cause? = none →
        (Operator.pull reached).next.state.phase = .failed cause →
          ∃ phase, (phase = .building ∨ phase = .probing) ∧
            failuresOf (Operator.pull reached).events = [(phase, cause)] := by
  intro reached
  obtain ⟨plan, checked, join_eq⟩ := exists_plan_of_ofSpec accepted
  have coherent : reached.state.Coherent plan := by
    apply coherent_afterCalls
    rw [join_eq]
    exact ⟨rfl, [], .ofPlan plan⟩
  obtain ⟨plan_eq, rights, represents⟩ := coherent
  refine
    ⟨represents.wellFormed, ?_, noPulls_history before, forward_afterCalls later,
      ?_⟩
  · rw [plan_eq]
    exact JoinPlan.ofSpec_eq_ok_iff.mp checked
  · intro cause noFailure failed
    cases active : reached.state.isActive with
    | true => exact (steps_pull active).failure cause failed
    | false =>
        have unchanged : (Operator.pull reached).next = reached :=
          (pull_of_inactive active).2
        rw [unchanged] at failed
        rw [failed] at noFailure
        cases noFailure

end Requests

/-- A key with a number. -/
def halfwaySchema : Schema := ⟨[⟨"key", .int⟩, ⟨"number", .int⟩]⟩

/-- A join with a sweep and a predicate behind the keys. -/
def halfwaySpec : JoinSpec :=
  { JoinSpec.equiJoin .right halfwaySchema halfwaySchema ⟨[0]⟩ ⟨[0]⟩ with
    residuals := ⟨[(Comparison.columns 1 .below 3).toPredicate]⟩ }

/-- One left row. -/
def halfwayLeft : Watched .left Replay :=
  ⟨.ofBlocks [.ofRows [[.int 1, .int 5]] halfwaySchema], 9⟩

/-- An idle block, and two right rows of which the second one cannot be compared. -/
def halfwayRight : Watched .right Replay :=
  ⟨.ofBlocks
    [.idle, .ofRows [[.int 1, .int 7], [.int 1, .boolean true]] halfwaySchema], 9⟩

/--
A small join that is suspended once and fails behind the first pair of a left row.
-/
def halfwayJoin : BroadcastJoin (Watched .left Replay) (Watched .right Replay) :=
  ⟨.ofPlan ((JoinPlan.ofSpec halfwaySpec ⟨some 2⟩).toOption.get rfl), halfwayLeft,
    halfwayRight⟩

/-- The places of the bucket of a small key that a join has marked. -/
def markedPlaces (state : JoinState) (key : Key) : Option (List Nat) :=
  state.marks?.map fun marks => (marks.marked key).toList

/--
The mark of the first pair stays behind the failure, until the join is closed.
-/
theorem wellFormed_throughout_sample :
    let failed := Operator.afterCalls halfwayJoin [.pull, .pull]
    let closed := Operator.afterCalls failed [.close]
    failed.state.phase.label = "Error" ∧
      markedPlaces failed.state ⟨[.int 1]⟩ = some [0] ∧
      markedPlaces closed.state ⟨[.int 1]⟩ = some [] ∧
      failed.state.WellFormed ∧
      closed.state.phase = failed.state.phase ∧
      (∃ cause phase, (phase = .building ∨ phase = .probing) ∧
        failuresOf
            (Operator.pull (Operator.afterCalls halfwayJoin [.pull])).events =
          [(phase, cause)]) ∧
      NoPulls (Operator.history halfwayJoin [.close]) := by
  have accepted :
      ofSpec halfwayLeft halfwayRight halfwaySpec ⟨some 2⟩ = .ok halfwayJoin := rfl
  have behindFailure := wellFormed_throughout accepted [.pull, .pull] [.close]
  have beforeFailure := wellFormed_throughout accepted [.pull] []
  obtain ⟨cause, failed⟩ :
      ∃ cause,
        (Operator.afterCalls halfwayJoin [.pull, .pull]).state.phase =
          .failed cause :=
    ⟨_, rfl⟩
  refine ⟨by decide, by decide, by decide, behindFailure.1, ?_, ⟨cause, ?_⟩, ?_⟩
  · exact behindFailure.2.2.2.1.staysFailed cause failed
  · exact beforeFailure.2.2.2.2 cause rfl failed
  · exact (wellFormed_throughout accepted [.close] []).2.2.1 rfl

end BroadcastJoin

end StreamJoin
