import StreamJoin.Residual.Basic
import StreamJoin.Value.Comparison

namespace StreamJoin

/-!
# Comparisons

The comparison of two operands as a residual predicate, with three-valued logic:
it is null as soon as an operand is null.  Operands that are present but have no
common order make the comparison fail.
-/

/-- What a comparison asks of the order of its operands. -/
inductive OrderTest where
  | equal
  | unequal
  | below
  | atMost
  | above
  | atLeast
  deriving Repr, DecidableEq

/-- Whether a test holds of two operands in a given order. -/
def OrderTest.holds : OrderTest → Ordering → Bool
  | .equal, order => order == .eq
  | .unequal, order => order != .eq
  | .below, order => order == .lt
  | .atMost, order => order != .gt
  | .above, order => order == .gt
  | .atLeast, order => order != .lt

/-- A column of the candidate row, or a fixed value. -/
inductive Operand where
  | column (index : Nat)
  | literal (value : Value)
  deriving Repr, DecidableEq

/-- The value of an operand in a row. -/
def Operand.valueIn (operand : Operand) (row : Row) : Except Fault Value :=
  match operand with
  | .literal value => .ok value
  | .column index =>
      match row[index]? with
      | some value => .ok value
      | none =>
          .error (.predicateFailed
            ("column " ++ index.repr ++ " out of bounds for row width " ++
              row.length.repr))

/-- Two operands and the test between them. -/
structure Comparison where
  left : Operand
  test : OrderTest
  right : Operand
  deriving Repr, DecidableEq

namespace Comparison

/-- The comparison of two columns. -/
def columns (left : Nat) (test : OrderTest) (right : Nat) : Comparison :=
  ⟨.column left, test, .column right⟩

/-- The comparison of a column with a fixed value. -/
def columnLiteral (column : Nat) (test : OrderTest) (value : Value) : Comparison :=
  ⟨.column column, test, .literal value⟩

/-- The comparison of two values that were found in a row. -/
def compareValues (test : OrderTest) (left right : Value) : Except Fault Value :=
  if left.isNull || right.isNull then
    .ok .null
  else
    match left.sqlOrder? right with
    | some order => .ok (.boolean (test.holds order))
    | none =>
        .error (.predicateFailed
          ("cannot compare " ++ left.text ++ " with " ++ right.text))

/-- The value of a comparison in a row. -/
def toPredicate (comparison : Comparison) : Predicate := fun row =>
  match comparison.left.valueIn row with
  | .error fault => .error fault
  | .ok left =>
      match comparison.right.valueIn row with
      | .error fault => .error fault
      | .ok right => compareValues comparison.test left right

end Comparison

end StreamJoin
