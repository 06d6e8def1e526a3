import StreamJoin.Join.Progress
import StreamJoin.Stream.Replay

namespace StreamJoin

/-!
# Trees of joins

Joins nest: a child of a join is a queued source or another join.  The shape of a
tree fixes the type of its states, and every shape gives an exhaustible operator,
because queued sources are exhaustible and joins pass the law on.
-/

/-- The shape of a tree of joins over queued sources. -/
inductive Shape where
  | source
  | join (left right : Shape)
  deriving Repr, DecidableEq

/-- The states of a tree of a given shape. -/
def Tree : Shape → Type
  | .source => Replay
  | .join left right => BroadcastJoin (Tree left) (Tree right)

/-- Every tree is an exhaustible operator. -/
instance Tree.exhaustible : (shape : Shape) → Exhaustible (Tree shape)
  | .source => inferInstanceAs (Exhaustible Replay)
  | .join left right =>
      have := Tree.exhaustible left
      have := Tree.exhaustible right
      inferInstanceAs (Exhaustible (BroadcastJoin (Tree left) (Tree right)))

namespace Tree

/-- The sources of a tree, from left to right. -/
def sources : {shape : Shape} → Tree shape → List Replay
  | .source, tree => [tree]
  | .join left right, tree =>
      let join : BroadcastJoin (Tree left) (Tree right) := tree
      join.left.sources ++ join.right.sources

/-- The states of the joins of a tree, in preorder. -/
def joins : {shape : Shape} → Tree shape → List JoinState
  | .source, _ => []
  | .join left right, tree =>
      let join : BroadcastJoin (Tree left) (Tree right) := tree
      join.state :: (join.left.joins ++ join.right.joins)

/-- A source as a tree. -/
def ofSource (source : Replay) : Tree .source := source

/-- A join of two trees, once its description is checked. -/
def ofSpec
    {leftShape rightShape : Shape}
    (left : Tree leftShape)
    (right : Tree rightShape)
    (spec : JoinSpec)
    (options : JoinOptions)
    (bucketOrder : BucketOrder := .byKey) :
    Except Fault (Tree (.join leftShape rightShape)) :=
  BroadcastJoin.ofSpec left right spec options bucketOrder

/-- The state of the join at the root. -/
def root {left right : Shape} (tree : Tree (.join left right)) : JoinState :=
  BroadcastJoin.state tree

end Tree

end StreamJoin
