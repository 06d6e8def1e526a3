import StreamJoin.Join.Tree
import StreamJoin.Proofs.PullHistory
import StreamJoin.Proofs.ReceivedBlocks

namespace StreamJoin

/-!
# Noted runs

An operator is noted if the blocks that it answers are written down.  In a noted
tree every operator is, the leaves included, so that of any run one can tell which
blocks each of them handed out.

The notes are for proofs only.  Leaving them away gives the tree back, and this
commutes with every request: a noted tree answers what the tree answers and reports
the same events.
-/

/-- An operator with the blocks that it answered since it was first noted. -/
structure Noted (State : Type) where
  operator : State
  answered : List Block

namespace Noted

variable {State : Type}

/-- Answer as the operator does, and write it down. -/
def pull [Operator State] (noted : Noted State) : Pull (Noted State) :=
  let pulled := Operator.pull noted.operator
  ⟨pulled.block, ⟨pulled.next, noted.answered ++ [pulled.block]⟩, pulled.events⟩

/-- Close the operator; nothing is answered. -/
def close [Operator State] (noted : Noted State) : Closing (Noted State) :=
  let closing := Operator.close noted.operator
  ⟨⟨closing.next, noted.answered⟩, closing.events⟩

instance [Operator State] : Operator (Noted State) where
  outline noted := Operator.outline noted.operator
  pull := pull
  close := close

instance [Drainable State] : Drainable (Noted State) where
  burst noted := Drainable.burst noted.operator
  burst_lt noted := Drainable.burst_lt noted.operator

instance [Exhaustible State] : Exhaustible (Noted State) where
  remaining noted := Exhaustible.remaining noted.operator
  remaining_lt noted := Exhaustible.remaining_lt noted.operator

/-- What was noted grows by what was answered. -/
theorem answered_afterCalls
    [Operator State]
    (noted : Noted State)
    (calls : List Call) :
    (Operator.afterCalls noted calls).answered =
      noted.answered ++ Operator.replies noted calls := by
  induction calls generalizing noted with
  | nil => exact (List.append_nil noted.answered).symm
  | cons call rest inductionHypothesis =>
      cases call with
      | pull =>
          refine (inductionHypothesis noted.pull.next).trans ?_
          exact List.append_assoc noted.answered [noted.pull.block] _
      | close => exact inductionHypothesis noted.close.next

end Noted

namespace Operator

variable {State Other : Type} [Operator State] [Operator Other]

/-- The events of a list of requests. -/
def reports {State : Type} [Operator State] (state : State) : List Call → List Event
  | [] => []
  | .pull :: rest => (pull state).events ++ reports (pull state).next rest
  | .close :: rest => (close state).events ++ reports (close state).next rest

/-- A map of states that every request commutes with. -/
structure Mirrors (onto : State → Other) : Prop where
  pull_eq : ∀ state,
    pull (onto state) =
      ⟨(pull state).block, onto (pull state).next, (pull state).events⟩
  close_eq : ∀ state,
    close (onto state) = ⟨onto (close state).next, (close state).events⟩

namespace Mirrors

variable {onto : State → Other}

/-- Mirrored operators stay mirrored over any requests. -/
theorem afterCalls
    (mirrors : Mirrors onto)
    (state : State)
    (calls : List Call) :
    afterCalls (onto state) calls = onto (Operator.afterCalls state calls) := by
  induction calls generalizing state with
  | nil => rfl
  | cons call rest inductionHypothesis =>
      cases call with
      | pull =>
          simp only [Operator.afterCalls, next, mirrors.pull_eq]
          exact inductionHypothesis (pull state).next
      | close =>
          simp only [Operator.afterCalls, next, mirrors.close_eq]
          exact inductionHypothesis (close state).next

/-- Mirrored operators answer any requests alike. -/
theorem replies
    (mirrors : Mirrors onto)
    (state : State)
    (calls : List Call) :
    replies (onto state) calls = Operator.replies state calls := by
  induction calls generalizing state with
  | nil => rfl
  | cons call rest inductionHypothesis =>
      cases call with
      | pull =>
          simp only [Operator.replies, mirrors.pull_eq]
          exact congrArg _ (inductionHypothesis (pull state).next)
      | close =>
          simp only [Operator.replies, mirrors.close_eq]
          exact inductionHypothesis (close state).next

/-- Mirrored operators report alike. -/
theorem reports
    (mirrors : Mirrors onto)
    (state : State)
    (calls : List Call) :
    reports (onto state) calls = Operator.reports state calls := by
  induction calls generalizing state with
  | nil => rfl
  | cons call rest inductionHypothesis =>
      cases call with
      | pull =>
          simp only [Operator.reports, mirrors.pull_eq]
          exact congrArg _ (inductionHypothesis (pull state).next)
      | close =>
          simp only [Operator.reports, mirrors.close_eq]
          exact congrArg _ (inductionHypothesis (close state).next)

end Mirrors

end Operator

namespace BroadcastJoin

variable {Left Right OtherLeft OtherRight : Type}

/-- The same join over other children. -/
def map
    (ontoLeft : Left → OtherLeft)
    (ontoRight : Right → OtherRight)
    (join : BroadcastJoin Left Right) :
    BroadcastJoin OtherLeft OtherRight :=
  ⟨join.state, ontoLeft join.left, ontoRight join.right⟩

section Left

variable [Operator Left] [Operator OtherLeft]
variable {ontoLeft : Left → OtherLeft}

/-- A join over mirrored children takes the same left block. -/
theorem pullLeft_map
    (ontoRight : Right → OtherRight)
    (mirrorsLeft : Operator.Mirrors ontoLeft)
    (join : BroadcastJoin Left Right) :
    (join.map ontoLeft ontoRight).pullLeft =
      ⟨join.pullLeft.block, join.pullLeft.next.map ontoLeft ontoRight,
        join.pullLeft.events⟩ := by
  simp only [pullLeft_eq_receive, map, mirrorsLeft.pull_eq]

end Left

section Right

variable [Drainable Right] [Drainable OtherRight]
variable {ontoRight : Right → OtherRight}

/-- A join over mirrored children receives the same right block. -/
theorem receivedRight_map
    (ontoLeft : Left → OtherLeft)
    (mirrorsRight : Operator.Mirrors ontoRight)
    (join : BroadcastJoin Left Right) :
    (join.map ontoLeft ontoRight).receivedRight = join.receivedRight := by
  simp only [receivedRight, map, mirrorsRight.pull_eq]

/-- Behind a right block, a join over mirrored children is still their mirror. -/
theorem behindRight_map
    (ontoLeft : Left → OtherLeft)
    (mirrorsRight : Operator.Mirrors ontoRight)
    (join : BroadcastJoin Left Right) :
    (join.map ontoLeft ontoRight).behindRight =
      join.behindRight.map ontoLeft ontoRight := by
  simp only [behindRight, receivedRight, map, mirrorsRight.pull_eq]

/-- A join over mirrored children reports the same of a right block. -/
theorem rightEvents_map
    (ontoLeft : Left → OtherLeft)
    (mirrorsRight : Operator.Mirrors ontoRight)
    (join : BroadcastJoin Left Right) :
    (join.map ontoLeft ontoRight).rightEvents = join.rightEvents := by
  simp only [rightEvents, receivedRight, map, mirrorsRight.pull_eq]

end Right

section Both

variable [Operator Left] [Drainable Right] [Operator OtherLeft]
  [Drainable OtherRight]
variable {ontoLeft : Left → OtherLeft} {ontoRight : Right → OtherRight}

/-- A pull that is let through commutes with a change of children. -/
theorem advance_map
    {join : BroadcastJoin Left Right}
    (mirrorsLeft : Operator.Mirrors ontoLeft)
    (mirrorsRight : Operator.Mirrors ontoRight)
    (active : join.state.isActive = true) :
    (join.map ontoLeft ontoRight).advance =
      ⟨join.advance.block, join.advance.next.map ontoLeft ontoRight,
        join.advance.events⟩ := by
  apply advance_induction
    (motive := fun join pulled =>
      (join.map ontoLeft ontoRight).advance =
        ⟨pulled.block, pulled.next.map ontoLeft ontoRight, pulled.events⟩)
    _ _ _ active
  · intro join _ probing
    have mapped : (join.map ontoLeft ontoRight).state.phase = .probing := probing
    simp only [advance, mapped]
    exact pullLeft_map ontoRight mirrorsLeft join
  · intro join answered _ beforeProbing answers
    have mapped :
        (join.map ontoLeft ontoRight).state.phase.isBeforeProbing = true :=
      beforeProbing
    rw [← receivedRight_map ontoLeft mirrorsRight join] at answers
    rw [advance_of_beforeProbing mapped, pullRight_of_answer answers,
      behindRight_map ontoLeft mirrorsRight, rightEvents_map ontoLeft mirrorsRight]
  · intro join _ beforeProbing goesOn later
    have mapped :
        (join.map ontoLeft ontoRight).state.phase.isBeforeProbing = true :=
      beforeProbing
    rw [← receivedRight_map ontoLeft mirrorsRight join] at goesOn
    rw [advance_of_beforeProbing mapped, pullRight_of_goesOn goesOn,
      behindRight_map ontoLeft mirrorsRight, rightEvents_map ontoLeft mirrorsRight,
      later]
    rfl

/-- A join over mirrored children is pulled alike. -/
theorem pull_map
    (mirrorsLeft : Operator.Mirrors ontoLeft)
    (mirrorsRight : Operator.Mirrors ontoRight)
    (join : BroadcastJoin Left Right) :
    (join.map ontoLeft ontoRight).pull =
      ⟨join.pull.block, join.pull.next.map ontoLeft ontoRight,
        join.pull.events⟩ := by
  cases active : join.state.isActive with
  | true =>
      have mapped : (join.map ontoLeft ontoRight).state.isActive = true := active
      rw [pull_of_isActive active, pull_of_isActive mapped,
        advance_map mirrorsLeft mirrorsRight active]
      rfl
  | false =>
      have mapped : (join.map ontoLeft ontoRight).state.isActive = false := active
      rw [pull_eq_of_inactive active]
      exact pull_eq_of_inactive mapped

end Both

/-- Every request to a join commutes with a change of children. -/
theorem mirrors_map
    [Operator Left]
    [Drainable Right]
    [Operator OtherLeft]
    [Drainable OtherRight]
    {ontoLeft : Left → OtherLeft}
    {ontoRight : Right → OtherRight}
    (mirrorsLeft : Operator.Mirrors ontoLeft)
    (mirrorsRight : Operator.Mirrors ontoRight) :
    Operator.Mirrors (map ontoLeft ontoRight) where
  pull_eq := pull_map mirrorsLeft mirrorsRight
  close_eq join := by
    change (join.map ontoLeft ontoRight).close =
      ⟨join.close.next.map ontoLeft ontoRight, join.close.events⟩
    cases closed : join.state.closed with
    | true => simp [close, map, closed]
    | false =>
        simp [close, map, closed, mirrorsLeft.close_eq, mirrorsRight.close_eq]

end BroadcastJoin

/-- The states of a tree in which every operator below the root is noted. -/
def NotedTree : Shape → Type
  | .source => Replay
  | .join left right =>
      BroadcastJoin (Noted (NotedTree left)) (Noted (NotedTree right))

instance NotedTree.exhaustible : (shape : Shape) → Exhaustible (NotedTree shape)
  | .source => inferInstanceAs (Exhaustible Replay)
  | .join left right =>
      have := NotedTree.exhaustible left
      have := NotedTree.exhaustible right
      inferInstanceAs
        (Exhaustible
          (BroadcastJoin (Noted (NotedTree left)) (Noted (NotedTree right))))

/-- A tree of which nothing is noted yet. -/
def Tree.noted : {shape : Shape} → Tree shape → Noted (NotedTree shape)
  | .source, tree => ⟨tree, []⟩
  | .join _ _, tree => ⟨BroadcastJoin.map Tree.noted Tree.noted tree, []⟩

namespace NotedTree

/-- A noted tree without its notes. -/
def erase : {shape : Shape} → NotedTree shape → Tree shape
  | .source, tree => tree
  | .join _ _, tree =>
      BroadcastJoin.map
        (fun left => left.operator.erase) (fun right => right.operator.erase) tree

/-- What the sources of a noted tree handed out, from left to right. -/
def handedOut : {shape : Shape} → Noted (NotedTree shape) → List (List Block)
  | .source, noted => [noted.answered]
  | .join left right, noted =>
      let join : BroadcastJoin (Noted (NotedTree left)) (Noted (NotedTree right)) :=
        noted.operator
      handedOut join.left ++ handedOut join.right

/-- Without the notes a noted tree is the tree. -/
theorem erase_noted {shape : Shape} (tree : Tree shape) :
    tree.noted.operator.erase = tree := by
  induction shape with
  | source => rfl
  | join leftShape rightShape leftHypothesis rightHypothesis =>
      obtain ⟨state, left, right⟩ := tree
      simp only [Tree.noted, erase, BroadcastJoin.map, leftHypothesis,
        rightHypothesis]
      rfl

/-- A tree that was never pulled has nothing noted. -/
theorem answered_noted {shape : Shape} (tree : Tree shape) :
    tree.noted.answered = [] := by
  cases shape with
  | source => rfl
  | join => rfl

/-- Notes change nothing. -/
theorem mirrors_erase : (shape : Shape) →
    Operator.Mirrors (fun noted : Noted (NotedTree shape) => noted.operator.erase)
  | .source => ⟨fun _ => rfl, fun _ => rfl⟩
  | .join left right => by
      have mirrors :=
        BroadcastJoin.mirrors_map (mirrors_erase left) (mirrors_erase right)
      exact
        ⟨fun noted => mirrors.pull_eq noted.operator,
          fun noted => mirrors.close_eq noted.operator⟩

section Runs

variable {shape : Shape} (tree : Tree shape) (calls : List Call)

/-- Over any requests a noted tree stays the tree with notes. -/
theorem erase_afterCalls :
    (Operator.afterCalls tree.noted calls).operator.erase =
      Operator.afterCalls tree calls := by
  have mirrored := (mirrors_erase shape).afterCalls tree.noted calls
  simp only [erase_noted] at mirrored
  exact mirrored.symm

/-- A noted tree answers like the tree. -/
theorem replies_noted :
    Operator.replies tree.noted calls = Operator.replies tree calls := by
  have mirrored := (mirrors_erase shape).replies tree.noted calls
  simp only [erase_noted] at mirrored
  exact mirrored.symm

/-- What is noted at the root is what the tree answered. -/
theorem answered_afterCalls :
    (Operator.afterCalls tree.noted calls).answered =
      Operator.replies tree calls := by
  rw [Noted.answered_afterCalls, answered_noted, List.nil_append, replies_noted]

/-- A noted tree reports like the tree. -/
theorem reports_noted :
    Operator.reports tree.noted calls = Operator.reports tree calls := by
  have mirrored := (mirrors_erase shape).reports tree.noted calls
  simp only [erase_noted] at mirrored
  exact mirrored.symm

end Runs

end NotedTree

end StreamJoin
