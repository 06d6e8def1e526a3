import Mathlib.Data.List.Forall2
import StreamJoin.Join.Tree
import StreamJoin.Proofs.OutlineText
import StreamJoin.Proofs.PullHistory
import StreamJoin.Proofs.ReceivedBlocks

namespace StreamJoin

/-!
# The picture of a tree

The text of a tree shows its shape and nothing else.  An operator stands in the tree
at the end of a way down from the root; these ways are what the lines of the text
are matched with.  The order of the lines is described by the ways alone: an
operator comes before those below it, and whatever is below the left child of a join
before whatever is below its right one.

What an operator shows of itself is never changed by a request if its children keep
what they show, so that it is enough to look at one join.
-/

namespace Operator

variable {State : Type} [Operator State]

/-- No request changes what is shown of an operator. -/
def KeepsOutline (State : Type) [Operator State] : Prop :=
  ∀ (state : State) (call : Call), outline (next state call) = outline state

/-- If no request changes the outline, any number of them does not. -/
theorem outline_afterCalls
    (keeps : KeepsOutline State)
    (state : State)
    (calls : List Call) :
    outline (afterCalls state calls) = outline state := by
  induction calls generalizing state with
  | nil => rfl
  | cons call rest inductionHypothesis =>
      exact (inductionHypothesis (next state call)).trans (keeps state call)

end Operator

/-- A queued source keeps its outline. -/
theorem Replay.keepsOutline : Operator.KeepsOutline Replay := fun _ _ => rfl

namespace BroadcastJoin

/-- A join keeps its outline if its children keep theirs. -/
theorem keepsOutline
    {Left Right : Type}
    [Operator Left]
    [Drainable Right]
    (leftKeeps : Operator.KeepsOutline Left)
    (rightKeeps : Operator.KeepsOutline Right) :
    Operator.KeepsOutline (BroadcastJoin Left Right) := by
  intro join call
  have sameChildren :
      Operator.outline (Operator.next join call).left = Operator.outline join.left ∧
        Operator.outline (Operator.next join call).right =
          Operator.outline join.right := by
    cases call with
    | pull =>
        exact
          children_pull
            (fun left same => (leftKeeps left .pull).trans same)
            (fun right same => (rightKeeps right .pull).trans same) rfl rfl
    | close =>
        change
          Operator.outline join.close.next.left = _ ∧
            Operator.outline join.close.next.right = _
        unfold close
        split
        · exact ⟨rfl, rfl⟩
        · exact ⟨leftKeeps join.left .close, rightKeeps join.right .close⟩
  change outline _ = outline join
  rw [outline, sameChildren.1, sameChildren.2, outline]

end BroadcastJoin

/--
One operator is shown before another: the other one is below it, or the two are
below different children of one join and the first one is on the left.  Both are
given by the ways down to them.
-/
inductive ShownBefore : List Side → List Side → Prop where
  | above (place : List Side) (side : Side) (way : List Side) :
      ShownBefore place (place ++ side :: way)
  | leftOf (fork leftWay rightWay : List Side) :
      ShownBefore (fork ++ .left :: leftWay) (fork ++ .right :: rightWay)

namespace ShownBefore

variable {first second : List Side}

/-- No operator is shown before itself. -/
theorem ne (before : ShownBefore first second) : first ≠ second := by
  intro same
  cases before with
  | above _ side way =>
      cases List.append_cancel_left ((List.append_nil first).trans same)
  | leftOf fork leftWay rightWay => cases List.append_cancel_left same

/-- The order is the same below a child. -/
theorem cons (side : Side) (before : ShownBefore first second) :
    ShownBefore (side :: first) (side :: second) := by
  cases before with
  | above _ next way => exact above (side :: first) next way
  | leftOf fork leftWay rightWay => exact leftOf (side :: fork) leftWay rightWay

end ShownBefore

namespace Shape

/-- The ways down from the root to all operators of a tree, in preorder. -/
def places : Shape → List (List Side)
  | .source => [[]]
  | .join left right =>
      [] ::
        (left.places.map (List.cons .left) ++ right.places.map (List.cons .right))

/-- The places are in the order in which operators are shown. -/
theorem pairwise_places (shape : Shape) : shape.places.Pairwise ShownBefore := by
  induction shape with
  | source => exact List.pairwise_singleton ShownBefore []
  | join left right leftHypothesis rightHypothesis =>
      have below :
          ∀ {child : Shape} (side : Side),
            child.places.Pairwise ShownBefore →
              (child.places.map (List.cons side)).Pairwise ShownBefore :=
        fun side ordered => ordered.map _ fun _ _ before => before.cons side
      refine List.pairwise_cons.mpr ⟨?rootFirst, ?childrenOrdered⟩
      case rootFirst =>
        intro place member
        rcases List.mem_append.mp member with onLeft | onRight
        · obtain ⟨way, _, rfl⟩ := List.mem_map.mp onLeft
          exact .above [] .left way
        · obtain ⟨way, _, rfl⟩ := List.mem_map.mp onRight
          exact .above [] .right way
      case childrenOrdered =>
        refine
          List.pairwise_append.mpr
            ⟨below .left leftHypothesis, below .right rightHypothesis, ?_⟩
        intro first onLeft second onRight
        obtain ⟨leftWay, _, rfl⟩ := List.mem_map.mp onLeft
        obtain ⟨rightWay, _, rfl⟩ := List.mem_map.mp onRight
        exact .leftOf [] leftWay rightWay

/-- No place is listed twice. -/
theorem nodup_places (shape : Shape) : shape.places.Nodup :=
  shape.pairwise_places.imp ShownBefore.ne

/-- What is shown of a tree of some shape. -/
def outline : Shape → Outline
  | .source => .node "QUEUED_SOURCE" []
  | .join left right => .node "HASH_JOIN" [left.outline, right.outline]

/-- A shape is told by its outline. -/
theorem outline_inj {first second : Shape} (same : first.outline = second.outline) :
    first = second := by
  induction first generalizing second with
  | source =>
      cases second with
      | source => rfl
      | join left right => exact absurd (Outline.node.inj same).1 (by decide)
  | join left right leftHypothesis rightHypothesis =>
      cases second with
      | source => exact absurd (Outline.node.inj same).1 (by decide)
      | join otherLeft otherRight =>
          obtain ⟨_, sameChildren⟩ := Outline.node.inj same
          obtain ⟨sameLeft, sameOthers⟩ := List.cons.inj sameChildren
          rw [leftHypothesis sameLeft, rightHypothesis (List.cons.inj sameOthers).1]

/-- The names of operators can be told from blanks and ends of lines. -/
theorem plain_names :
    Outline.PlainName "QUEUED_SOURCE" ∧ Outline.PlainName "HASH_JOIN" :=
  ⟨⟨by decide, by decide⟩, ⟨by decide, by decide⟩⟩

/-- The names in the outline of a shape are plain. -/
theorem plain_outline (shape : Shape) : shape.outline.Plain := by
  suffices
      atAnyDepth :
        ∀ depth,
          ∀ entry ∈ shape.outline.entries depth, Outline.PlainName entry.name from
    atAnyDepth 0
  induction shape with
  | source =>
      intro depth
      exact List.forall_mem_singleton.mpr plain_names.1
  | join left right leftHypothesis rightHypothesis =>
      intro depth
      simp only [outline, Outline.entries, Outline.childEntries, List.append_nil,
        List.forall_mem_cons, List.forall_mem_append]
      exact ⟨plain_names.2, leftHypothesis (depth + 1), rightHypothesis (depth + 1)⟩

end Shape

namespace Tree

variable {shape : Shape}

/-- The operator at the end of a way down from the root. -/
def at? :
    {shape : Shape} → Tree shape → List Side → Option ((found : Shape) × Tree found)
  | shape, tree, [] => some ⟨shape, tree⟩
  | .source, _, _ :: _ => none
  | .join left right, tree, .left :: way =>
      let join : BroadcastJoin (Tree left) (Tree right) := tree
      join.left.at? way
  | .join left right, tree, .right :: way =>
      let join : BroadcastJoin (Tree left) (Tree right) := tree
      join.right.at? way

/-- An operator stands at each place of the shape and nowhere else. -/
theorem mem_places_iff (tree : Tree shape) (place : List Side) :
    place ∈ shape.places ↔ ∃ operator, tree.at? place = some operator := by
  induction shape generalizing place with
  | source =>
      cases place with
      | nil => exact ⟨fun _ => ⟨_, rfl⟩, fun _ => List.mem_singleton_self _⟩
      | cons side way => simp [Shape.places, at?]
  | join leftShape rightShape leftHypothesis rightHypothesis =>
      obtain ⟨state, left, right⟩ := tree
      cases place with
      | nil => exact ⟨fun _ => ⟨_, rfl⟩, fun _ => List.mem_cons_self⟩
      | cons side way =>
          cases side with
          | left => simpa [Shape.places, at?] using leftHypothesis left way
          | right => simpa [Shape.places, at?] using rightHypothesis right way

/-- The outline of a tree depends on its shape only. -/
theorem outline_eq (tree : Tree shape) : Operator.outline tree = shape.outline := by
  induction shape with
  | source => rfl
  | join leftShape rightShape leftHypothesis rightHypothesis =>
      obtain ⟨state, left, right⟩ := tree
      change Outline.node _ [Operator.outline left, Operator.outline right] = _
      rw [leftHypothesis, rightHypothesis, Shape.outline]

/-- Every tree keeps its outline. -/
theorem keepsOutline (shape : Shape) : Operator.KeepsOutline (Tree shape) := by
  induction shape with
  | source => exact Replay.keepsOutline
  | join left right leftHypothesis rightHypothesis =>
      exact BroadcastJoin.keepsOutline leftHypothesis rightHypothesis

/--
The entry of the operator at a place, in a tree that is shown from some depth on.
-/
def EntryAt
    (tree : Tree shape)
    (depth : Nat)
    (place : List Side)
    (entry : Outline.Entry) : Prop :=
  ∃ operator,
    tree.at? place = some operator ∧
      entry = ⟨depth + place.length, Operator.name operator.2⟩

/-- A child is shown one level deeper, and the way to it is one step longer. -/
theorem entryAt_of_child
    {leftShape rightShape : Shape}
    (join : BroadcastJoin (Tree leftShape) (Tree rightShape))
    {depth : Nat}
    {way : List Side}
    {entry : Outline.Entry} :
    let tree : Tree (.join leftShape rightShape) := join
    (join.left.EntryAt (depth + 1) way entry →
      tree.EntryAt depth (.left :: way) entry) ∧
        (join.right.EntryAt (depth + 1) way entry →
          tree.EntryAt depth (.right :: way) entry) := by
  have deeper : depth + 1 + way.length = depth + (way.length + 1) := by omega
  constructor
  · rintro ⟨operator, found, rfl⟩
    exact ⟨operator, found, by rw [deeper, List.length_cons]⟩
  · rintro ⟨operator, found, rfl⟩
    exact ⟨operator, found, by rw [deeper, List.length_cons]⟩

/-- The entries of a tree are those of its operators, in the order of the places. -/
theorem forall₂_entries (tree : Tree shape) (depth : Nat) :
    List.Forall₂ (tree.EntryAt depth) shape.places
      ((Operator.outline tree).entries depth) := by
  induction shape generalizing depth with
  | source => exact .cons ⟨⟨_, tree⟩, rfl, rfl⟩ .nil
  | join leftShape rightShape leftHypothesis rightHypothesis =>
      let join : BroadcastJoin (Tree leftShape) (Tree rightShape) := tree
      have onLeft :
          List.Forall₂ (tree.EntryAt depth) (leftShape.places.map (List.cons .left))
            ((Operator.outline join.left).entries (depth + 1)) :=
        List.forall₂_map_left_iff.mpr
          ((leftHypothesis join.left (depth + 1)).imp fun _ _ =>
            (entryAt_of_child join).1)
      have onRight :
          List.Forall₂ (tree.EntryAt depth)
            (rightShape.places.map (List.cons .right))
            ((Operator.outline join.right).entries (depth + 1)) :=
        List.forall₂_map_left_iff.mpr
          ((rightHypothesis join.right (depth + 1)).imp fun _ _ =>
            (entryAt_of_child join).2)
      have atRoot : tree.EntryAt depth [] ⟨depth, Operator.name tree⟩ :=
        ⟨⟨_, tree⟩, rfl, rfl⟩
      refine .cons atRoot (List.rel_append onLeft ?_)
      rw [Outline.childEntries, Outline.childEntries, List.append_nil]
      exact onRight

/-- The line of an operator: two blanks for each level above it, then its name. -/
def ShownBy (tree : Tree shape) (place : List Side) (line : List Char) : Prop :=
  ∃ operator,
    tree.at? place = some operator ∧
      line =
        List.replicate (2 * place.length) ' ' ++ (Operator.name operator.2).toList

/-- A text as the picture of a tree: its lines, and the operators that they show. -/
structure Picture
    (tree : Tree shape)
    (text : String)
    (places : List (List Side))
    (lines : List (List Char)) : Prop where
  lines_eq : text.toList.splitOn '\n' = lines ++ [[]]
  shown : List.Forall₂ tree.ShownBy places lines
  nodup : places.Nodup
  mem_iff : ∀ place, place ∈ places ↔ ∃ operator, tree.at? place = some operator
  preorder : places.Pairwise ShownBefore

/-- The names in the outline of a tree are plain. -/
theorem plain_outline (tree : Tree shape) : (Operator.outline tree).Plain := by
  rw [outline_eq]
  exact shape.plain_outline

/-- The text of a tree is its picture. -/
theorem picture_text (tree : Tree shape) :
    tree.Picture (Operator.outline tree).text shape.places
      (((Operator.outline tree).entries 0).map fun entry => entry.line.toList) where
  lines_eq := Outline.splitOn_text tree.plain_outline
  shown := by
    rw [List.forall₂_map_right_iff]
    apply (tree.forall₂_entries 0).imp
    rintro place entry ⟨operator, found, rfl⟩
    exact ⟨operator, found, by rw [Outline.toList_line, Nat.zero_add]⟩
  nodup := shape.nodup_places
  mem_iff := tree.mem_places_iff
  preorder := shape.pairwise_places

/--
The text of a tree is a faithful picture of it.  Its lines match the operators one
by one, in preorder and with the left child before the right one; a line is two
blanks for each level and the name of the operator.  Another tree has the same text
exactly if it has the same shape.  And no pulling or closing of the root changes the
text.
-/
theorem outline_pictures (tree : Tree shape) :
    (∃ places lines, tree.Picture (Operator.outline tree).text places lines) ∧
      (∀ {otherShape : Shape} (other : Tree otherShape),
        (Operator.outline other).text = (Operator.outline tree).text ↔
          otherShape = shape) ∧
      ∀ calls : List Call,
        (Operator.outline (Operator.afterCalls tree calls)).text =
          (Operator.outline tree).text := by
  refine ⟨⟨_, _, tree.picture_text⟩, ?sameText, ?unchanged⟩
  case sameText =>
    intro otherShape other
    constructor
    · intro same
      apply Shape.outline_inj
      rw [← other.outline_eq, ← tree.outline_eq]
      exact Outline.text_inj other.plain_outline tree.plain_outline same
    · rintro rfl
      rw [other.outline_eq, tree.outline_eq]
  case unchanged =>
    intro calls
    rw [Operator.outline_afterCalls (keepsOutline shape)]

/-- Where the inner join ends is told by the blanks in front of the last line. -/
example :
    (Shape.join (.join .source .source) .source).outline.text =
      "HASH_JOIN\n  HASH_JOIN\n    QUEUED_SOURCE\n    QUEUED_SOURCE\n" ++
        "  QUEUED_SOURCE\n" := by
  decide

end Tree

end StreamJoin
