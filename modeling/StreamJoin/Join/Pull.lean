import StreamJoin.Join.Drain

namespace StreamJoin

/-!
# Pulling a join

A join over two children is its state together with theirs.  The right child is
drained first; a right child with nothing ready suspends the join, and the next
pull goes on where this one stopped.  Once the right child has ended, every pull
takes at most one block from the left child.
-/

/-- A join over two children. -/
structure BroadcastJoin (Left Right : Type) where
  state : JoinState
  left : Left
  right : Right

/-- What comes of taking one block from the left child. -/
structure Probed (Left : Type) where
  block : Block
  state : JoinState
  left : Left
  events : List Event

namespace JoinState

/-- Take one block from the left child. -/
def probeLeft
    {Left : Type}
    [Operator Left]
    (state : JoinState)
    (left : Left) :
    Probed Left :=
  let pulled := Operator.pull left
  match pulled.block with
  | .idle => ⟨.idle, state, pulled.next, pulled.events⟩
  | .ended =>
      let answer := state.finishProbe
      ⟨answer.block, answer.state, pulled.next, pulled.events ++ answer.events⟩
  | .failed cause =>
      let answer := state.fail cause
      ⟨answer.block, answer.state, pulled.next, pulled.events ++ answer.events⟩
  | .data block =>
      let answer := state.probe block.rows
      ⟨answer.block, answer.state, pulled.next, pulled.events ++ answer.events⟩

end JoinState

namespace BroadcastJoin

variable {Left Right : Type}

/--
A join over two children that were not pulled by it, once its description is
checked.
-/
def ofSpec
    (left : Left)
    (right : Right)
    (spec : JoinSpec)
    (options : JoinOptions)
    (bucketOrder : BucketOrder := .byKey) :
    Except Fault (BroadcastJoin Left Right) :=
  (JoinPlan.ofSpec spec options bucketOrder).map fun plan =>
    ⟨.ofPlan plan, left, right⟩

/-- Take one block from the left child, the right one having ended. -/
def pullLeft
    [Operator Left]
    (join : BroadcastJoin Left Right) :
    Pull (BroadcastJoin Left Right) :=
  let probed := join.state.probeLeft join.left
  ⟨probed.block, ⟨probed.state, probed.left, join.right⟩, probed.events⟩

/-- Drain the right child and, if it ended, take one block from the left one. -/
def pullRight
    [Operator Left]
    [Drainable Right]
    (join : BroadcastJoin Left Right) :
    Pull (BroadcastJoin Left Right) :=
  let drained := join.state.beginBuild.drainRight join.right
  let waiting : BroadcastJoin Left Right :=
    ⟨drained.state, join.left, drained.right⟩
  match drained.block? with
  | some block => ⟨block, waiting, drained.events⟩
  | none =>
      let probed := waiting.pullLeft
      ⟨probed.block, probed.next, drained.events ++ probed.events⟩

/-- Answer a pull of a join that neither failed nor was closed. -/
def advance
    [Operator Left]
    [Drainable Right]
    (join : BroadcastJoin Left Right) :
    Pull (BroadcastJoin Left Right) :=
  match join.state.phase with
  | .fresh => join.pullRight
  | .building => join.pullRight
  | .probing => join.pullLeft
  | _ => ⟨.ended, join, []⟩

/--
Answer a pull.  A failed join repeats its failure, also after it was closed, and a
closed one has ended.
-/
def pull
    [Operator Left]
    [Drainable Right]
    (join : BroadcastJoin Left Right) :
    Pull (BroadcastJoin Left Right) :=
  let opened := Event.pullOpened join.state.kind join.state.phase
  match join.state.phase.cause? with
  | some cause => ⟨.failed cause, join, [opened]⟩
  | none =>
      if join.state.closed then
        ⟨.ended, join, [opened]⟩
      else
        let answer := join.advance
        let answered :=
          Event.pullAnswered answer.block.label answer.block.rows.length
        ⟨answer.block, answer.next, opened :: (answer.events ++ [answered])⟩

/--
Close the join and its children, the left one first; a second time nothing happens.
-/
def close
    [Operator Left]
    [Operator Right]
    (join : BroadcastJoin Left Right) :
    Closing (BroadcastJoin Left Right) :=
  if join.state.closed then
    ⟨join, []⟩
  else
    let left := Operator.close join.left
    let right := Operator.close join.right
    ⟨⟨join.state.release, left.next, right.next⟩,
      left.events ++ right.events ++ [.joinClosed join.state.kind]⟩

/-- The name of a join over the outlines of its children. -/
def outline [Operator Left] [Operator Right] (join : BroadcastJoin Left Right) :
    Outline :=
  .node "HASH_JOIN" [Operator.outline join.left, Operator.outline join.right]

instance [Operator Left] [Drainable Right] :
    Operator (BroadcastJoin Left Right) where
  outline := outline
  pull := pull
  close := close

end BroadcastJoin

end StreamJoin
