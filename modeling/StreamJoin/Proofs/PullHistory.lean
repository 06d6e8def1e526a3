import StreamJoin.Join.Phase
import StreamJoin.Stream.Operator

namespace StreamJoin

/-!
# Histories of pulls

The children of an operator are watched while somebody pulls and closes the
operator.  What happens is a history of moments.  `Permits` says which pasts permit
a child to be pulled, and a history is disciplined if each pull of a child is
permitted by all moments before it.

`Running` is the invariant of a join that may pull.  It says of the past what the
guards of the join do not remember.
-/

/--
A child that reports each of its pulls and nothing else.  It follows the behaviour
of any operator until its patience is used up, and is idle from then on, so that a
loop over it ends.  The patience is arbitrary, so no run is left out.
-/
structure Watched (side : Side) (Child : Type) where
  child : Child
  patience : Nat

namespace Watched

variable {side : Side} {Child : Type} [Operator Child]

/-- Answer as the child would, or be idle, and report the answer. -/
def pull (watched : Watched side Child) : Pull (Watched side Child) :=
  match watched.patience with
  | 0 => ⟨.idle, watched, [.childAnswered side .idle]⟩
  | patience + 1 =>
      let pulled := Operator.pull watched.child
      ⟨pulled.block, ⟨pulled.next, patience⟩, [.childAnswered side pulled.block]⟩

/-- Close the child. -/
def close (watched : Watched side Child) : Closing (Watched side Child) :=
  ⟨⟨(Operator.close watched.child).next, watched.patience⟩, []⟩

instance : Drainable (Watched side Child) where
  outline watched := Operator.outline watched.child
  pull := pull
  close := close
  burst watched := watched.patience
  burst_lt watched isData := by
    obtain ⟨child, patience⟩ := watched
    cases patience with
    | zero => cases isData
    | succ patience => exact Nat.lt_succ_self patience

/-- A watched child reports its pull with the answer. -/
theorem events_pull (watched : Watched side Child) :
    (Operator.pull watched).events =
      [.childAnswered side (Operator.pull watched).block] := by
  obtain ⟨child, patience⟩ := watched
  cases patience with
  | zero => rfl
  | succ patience => rfl

end Watched

/-- What happens between a join, its children and its caller. -/
inductive Moment where
  | pulled (side : Side) (block : Block)
  | built
  | swept
  | answered (block : Block)
  | closed
  deriving Repr, DecidableEq

/-- The moment of an event, if it is one at which a child is involved. -/
def Event.moment? : Event → Option Moment
  | .childAnswered side block => some (.pulled side block)
  | .tableBuilt _ _ _ => some .built
  | .unmatchedEmitted _ _ => some .swept
  | _ => none

/-- The moments of a list of events. -/
def momentsOf (events : List Event) : List Moment := events.filterMap Event.moment?

/-- The moments of two lists of events are those of one and of the other. -/
theorem momentsOf_append (first later : List Event) :
    momentsOf (first ++ later) = momentsOf first ++ momentsOf later :=
  List.filterMap_append

/-- Whether a moment is a pull of the left child. -/
def Moment.isLeftPull : Moment → Bool
  | .pulled .left _ => true
  | _ => false

/-- How often the left child is pulled. -/
def leftPulls (moments : List Moment) : Nat := moments.countP Moment.isLeftPull

/-- The left pulls of two lists of moments add up. -/
theorem leftPulls_append (first later : List Moment) :
    leftPulls (first ++ later) = leftPulls first + leftPulls later :=
  List.countP_append

/-- A request to an operator. -/
inductive Call where
  | pull
  | close
  deriving Repr, DecidableEq

namespace Operator

variable {State : Type} [Operator State]

/-- The state after a request. -/
def next (state : State) : Call → State
  | .pull => (pull state).next
  | .close => (close state).next

/-- The moments of a request; the last one is its answer. -/
def moments (state : State) : Call → List Moment
  | .pull => momentsOf (pull state).events ++ [.answered (pull state).block]
  | .close => momentsOf (close state).events ++ [.closed]

/-- The state after a list of requests. -/
def afterCalls (state : State) : List Call → State
  | [] => state
  | call :: rest => afterCalls (next state call) rest

/-- What an operator answers to the pulls among some requests. -/
def replies (state : State) : List Call → List Block
  | [] => []
  | .pull :: rest => (pull state).block :: replies (pull state).next rest
  | .close :: rest => replies (close state).next rest

/-- The moments of a list of requests. -/
def history (state : State) : List Call → List Moment
  | [] => []
  | call :: rest => moments state call ++ history (next state call) rest

end Operator

/-- Moments after which a child may be pulled. -/
structure Permits (past : List Moment) (side : Side) : Prop where
  rightEnded : side = .left → .pulled .right .ended ∈ past
  childGoesOn : ∀ block : Block, block.isTerminal = true → .pulled side block ∉ past
  noFailure : ∀ cause : Fault, .answered (.failed cause) ∉ past
  notSwept : .swept ∉ past
  notClosed : .closed ∉ past

/--
Each pull of a child among some moments is permitted by all moments before it.
-/
def Disciplined (past : List Moment) : List Moment → Prop
  | [] => True
  | .pulled side block :: rest =>
      Permits past side ∧ Disciplined (past ++ [.pulled side block]) rest
  | moment :: rest => Disciplined (past ++ [moment]) rest

section Discipline

variable {past first later : List Moment}

/-- A disciplined history may go on with a disciplined one. -/
theorem disciplined_append
    (permitted : Disciplined past first)
    (laterPermitted : Disciplined (past ++ first) later) :
    Disciplined past (first ++ later) := by
  induction first generalizing past with
  | nil => rwa [List.append_nil] at laterPermitted
  | cons moment rest inductionHypothesis =>
      rw [List.append_cons] at laterPermitted
      cases moment with
      | pulled side block =>
          obtain ⟨permits, restPermitted⟩ := permitted
          exact ⟨permits, inductionHypothesis restPermitted laterPermitted⟩
      | built => exact inductionHypothesis permitted laterPermitted
      | swept => exact inductionHypothesis permitted laterPermitted
      | answered block => exact inductionHypothesis permitted laterPermitted
      | closed => exact inductionHypothesis permitted laterPermitted

/-- In a disciplined history each pull is permitted by what came before it. -/
theorem permits_of_disciplined
    {moments before after : List Moment}
    {side : Side}
    {block : Block}
    (permitted : Disciplined past moments)
    (split : moments = before ++ .pulled side block :: after) :
    Permits (past ++ before) side := by
  induction before generalizing past moments with
  | nil =>
      subst split
      rw [List.append_nil]
      exact permitted.1
  | cons moment rest inductionHypothesis =>
      subst split
      rw [List.append_cons]
      cases moment with
      | pulled side block => exact inductionHypothesis permitted.2 rfl
      | built => exact inductionHypothesis permitted rfl
      | swept => exact inductionHypothesis permitted rfl
      | answered block => exact inductionHypothesis permitted rfl
      | closed => exact inductionHypothesis permitted rfl

end Discipline

/-- Whether a moment leaves a join and its children as they are. -/
def Moment.endsNothing : Moment → Bool
  | .pulled _ block => !block.isTerminal
  | .built => true
  | .swept => false
  | .answered block => !block.isFailed
  | .closed => false

/-- The past of a join that may pull, by its phase. -/
structure Running (past : List Moment) (phase : Phase) : Prop where
  noFailure : ∀ cause : Fault, .answered (.failed cause) ∉ past
  notSwept : .swept ∉ past
  notClosed : .closed ∉ past
  leftGoesOn : ∀ block : Block, block.isTerminal = true → .pulled .left block ∉ past
  rightGoesOn :
    phase.isBeforeProbing = true →
      ∀ block : Block, block.isTerminal = true → .pulled .right block ∉ past
  rightEnded : phase = .probing → .pulled .right .ended ∈ past

namespace Running

variable {past : List Moment} {phase : Phase}

/-- Nothing happened yet to a join that may pull. -/
theorem nil (beforeProbing : phase.isBeforeProbing = true) : Running [] phase where
  noFailure _ := List.not_mem_nil
  notSwept := List.not_mem_nil
  notClosed := List.not_mem_nil
  leftGoesOn _ _ := List.not_mem_nil
  rightGoesOn _ _ _ := List.not_mem_nil
  rightEnded probing := by
    rw [probing] at beforeProbing
    cases beforeProbing

/-- A join that begins to build may go on pulling. -/
theorem begin (running : Running past .fresh) : Running past .building where
  noFailure := running.noFailure
  notSwept := running.notSwept
  notClosed := running.notClosed
  leftGoesOn := running.leftGoesOn
  rightGoesOn _ := running.rightGoesOn rfl
  rightEnded := nofun

/-- A join that still builds may pull its right child. -/
theorem permits_right
    (running : Running past phase)
    (beforeProbing : phase.isBeforeProbing = true) :
    Permits past .right where
  rightEnded impossible := by cases impossible
  childGoesOn := running.rightGoesOn beforeProbing
  noFailure := running.noFailure
  notSwept := running.notSwept
  notClosed := running.notClosed

/-- A join that probes may pull its left child. -/
theorem permits_left (running : Running past .probing) : Permits past .left where
  rightEnded _ := running.rightEnded rfl
  childGoesOn := running.leftGoesOn
  noFailure := running.noFailure
  notSwept := running.notSwept
  notClosed := running.notClosed

/-- Moments that end nothing keep the invariant. -/
theorem append
    {moments : List Moment}
    (running : Running past phase)
    (harmless : ∀ moment ∈ moments, moment.endsNothing = true) :
    Running (past ++ moments) phase := by
  have kept :
      ∀ moment : Moment, moment.endsNothing = false → moment ∉ past →
        moment ∉ past ++ moments := by
    intro moment ends notBefore member
    rcases List.mem_append.mp member with before | now
    · exact notBefore before
    · rw [harmless moment now] at ends
      cases ends
  exact {
    noFailure := fun cause => kept _ rfl (running.noFailure cause)
    notSwept := kept _ rfl running.notSwept
    notClosed := kept _ rfl running.notClosed
    leftGoesOn := fun block terminal =>
      kept _ (by rw [Moment.endsNothing, terminal]; rfl)
        (running.leftGoesOn block terminal)
    rightGoesOn := fun beforeProbing block terminal =>
      kept _ (by rw [Moment.endsNothing, terminal]; rfl)
        (running.rightGoesOn beforeProbing block terminal)
    rightEnded := fun probing => List.mem_append_left _ (running.rightEnded probing)
  }

/-- A moment that ends nothing keeps the invariant. -/
theorem append_one
    {moment : Moment}
    (running : Running past phase)
    (harmless : moment.endsNothing = true) :
    Running (past ++ [moment]) phase := by
  apply running.append
  intro other member
  rw [List.mem_singleton.mp member]
  exact harmless

/-- The end of the right child lets the left one be pulled. -/
theorem turn (running : Running past .building) :
    Running (past ++ [.pulled .right .ended, .built]) .probing := by
  have kept :
      ∀ moment : Moment, moment ≠ .pulled .right .ended → moment ≠ .built →
        moment ∉ past → moment ∉ past ++ [.pulled .right .ended, .built] := by
    intro moment notEnd notBuilt notBefore member
    rcases List.mem_append.mp member with before | now
    · exact notBefore before
    · rcases List.mem_cons.mp now with isEnd | isBuilt
      · exact notEnd isEnd
      · exact notBuilt (List.mem_singleton.mp isBuilt)
  exact {
    noFailure := fun cause => kept _ nofun nofun (running.noFailure cause)
    notSwept := kept _ nofun nofun running.notSwept
    notClosed := kept _ nofun nofun running.notClosed
    leftGoesOn := fun block terminal =>
      kept _ nofun nofun (running.leftGoesOn block terminal)
    rightGoesOn := nofun
    rightEnded := fun _ => List.mem_append_right _ List.mem_cons_self
  }

end Running

end StreamJoin
