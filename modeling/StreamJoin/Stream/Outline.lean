namespace StreamJoin

/-!
# Outlines

The names of an operator and of its children, recursively, and the text in which a
tree of operators is shown: one line for each operator, in preorder, indented by its
depth.
-/

/-- A name and the outlines below it. -/
inductive Outline where
  | node (name : String) (children : List Outline)
  deriving Repr

namespace Outline

/-- The name at the root. -/
def name : Outline → String
  | .node name _ => name

/-- The outlines below the root. -/
def children : Outline → List Outline
  | .node _ children => children

mutual

/--
One line for each operator, in preorder: two blanks for each level, then the name.
-/
def lines (depth : Nat) : Outline → List String
  | .node name children =>
      (String.ofList (List.replicate (2 * depth) ' ') ++ name) ::
        childLines (depth + 1) children

/-- The lines of a list of outlines at the same level. -/
def childLines (depth : Nat) : List Outline → List String
  | [] => []
  | first :: rest => lines depth first ++ childLines depth rest

end

/-- An outline as text; every line is ended. -/
def text (outline : Outline) : String :=
  String.join ((outline.lines 0).map fun line => line ++ "\n")

end Outline

end StreamJoin
