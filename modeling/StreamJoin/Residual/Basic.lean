import StreamJoin.Fault
import StreamJoin.Value.Text

namespace StreamJoin

/-!
# Residual predicates

A residual predicate is an expression over a candidate row, the left columns
followed by the right ones.  A candidate survives when every residual predicate of
the join is strictly true.  The predicates are tried in order and the first one that
does not hold decides, so what stands behind it is neither evaluated nor able to
fail.
-/

/-- An expression over a row, which may fail. -/
abbrev Predicate := Row → Except Fault Value

namespace Value

/--
The truth of a predicate's result.  Null is not true, a whole number is true
unless it is zero, and values of all other types are refused.
-/
def truth (value : Value) : Except Fault Bool :=
  match value with
  | .null => .ok false
  | .boolean truth => .ok truth
  | .int number => .ok (number != 0)
  | .long number => .ok (number != 0)
  | .float _
  | .double _
  | .string _
  | .bytes _ =>
      let typeName := (value.type?.map ColumnType.label).getD "NULL"
      .error (.predicateFailed
        ("cannot coerce " ++ value.text ++ " of type " ++ typeName ++
          " to BOOLEAN"))

end Value

/-- The conjunction of predicates over candidate rows. -/
structure Residuals where
  predicates : List Predicate

namespace Residuals

/-- No predicates; every candidate survives. -/
def none : Residuals := ⟨[]⟩

/-- The predicates with one more behind them. -/
def push (residuals : Residuals) (predicate : Predicate) : Residuals :=
  ⟨residuals.predicates ++ [predicate]⟩

/-- The number of predicates. -/
def size (residuals : Residuals) : Nat := residuals.predicates.length

/-- Whether there are no predicates. -/
def isEmpty (residuals : Residuals) : Bool := residuals.predicates.isEmpty

/-- Whether a row makes each of a list of predicates true. -/
def allHold (row : Row) : List Predicate → Except Fault Bool
  | [] => .ok true
  | predicate :: rest =>
      match predicate row with
      | .error fault => .error fault
      | .ok value =>
          match value.truth with
          | .error fault => .error fault
          | .ok false => .ok false
          | .ok true => allHold row rest

/-- Whether a candidate row survives. -/
def accepts (residuals : Residuals) (row : Row) : Except Fault Bool :=
  allHold row residuals.predicates

/-- The predicates as they are shown to a developer. -/
def describe (residuals : Residuals) : String :=
  "ResidualFilter ".push '{' ++
    (" predicates: " ++ residuals.size.repr ++ " ").push '}'

end Residuals

end StreamJoin
