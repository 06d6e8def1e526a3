namespace StreamJoin

/-!
# Faults

This module holds every way in which building or running a join can fail.  A
fault is a cause with the data that describes it; its wording is a function of
the cause, so two faults are equal exactly when their causes are.

Faults come in two classes.  The construction faults are found while a join is
being described, before any child is pulled; all others belong to a run.
-/

/-- The two inputs of a join. -/
inductive Side where
  | left
  | right
  deriving Repr, DecidableEq

/-- The word for a side in messages. -/
def Side.label : Side → String
  | .left => "left"
  | .right => "right"

/-- A cause of failure, together with what its message reports. -/
inductive Fault where
  | unsupportedJoin (joinType : String)
  | missingKeys (side : Side)
  | keyCountMismatch (left right : Nat)
  | keyColumnMissing (side : Side) (column width : Nat)
  | noLeftColumns
  | resultWidthMismatch (left right result : Nat)
  | badSchema (reason : String)
  | badOption (key value reason : String)
  | wrongRowWidth (side : Side) (expected actual : Nat)
  | predicateFailed (reason : String)
  | rowLimitExceeded (limit : Nat)
  | inputFailed (reason : String)
  deriving Repr, DecidableEq

namespace Fault

/-- The sentence shown to the user of a failed query. -/
def message : Fault → String
  | .unsupportedJoin joinType =>
      "join type " ++ joinType ++ " is not supported by the hash join"
  | .missingKeys side =>
      side.label ++ " key selector for join cannot be null"
  | .keyCountMismatch left right =>
      "left key selector selects " ++ left.repr ++
        " columns but right key selector selects " ++ right.repr
  | .keyColumnMissing side column width =>
      side.label ++ " key column " ++ column.repr ++
        " out of bounds for row width " ++ width.repr
  | .noLeftColumns =>
      "left column size has to be greater than zero"
  | .resultWidthMismatch left right result =>
      "result column size " ++ result.repr ++
        " must equal left column size " ++ left.repr ++
        " plus right column size " ++ right.repr
  | .badSchema reason =>
      "invalid schema: " ++ reason
  | .badOption key value reason =>
      "invalid query option " ++ key ++ "=" ++ value ++ ": " ++ reason
  | .wrongRowWidth side expected actual =>
      side.label ++ " row has " ++ actual.repr ++
        " columns but its schema declares " ++ expected.repr
  | .predicateFailed reason =>
      "residual predicate evaluation failed: " ++ reason
  | .rowLimitExceeded limit =>
      "broadcast table exceeded the maxRowsInJoin limit of " ++
        limit.repr ++ " rows"
  | .inputFailed reason =>
      "upstream operator failed: " ++ reason

/-- Whether the fault is found before any child of a join is pulled. -/
def isPlanFault : Fault → Bool
  | .unsupportedJoin _
  | .missingKeys _
  | .keyCountMismatch _ _
  | .keyColumnMissing _ _ _
  | .noLeftColumns
  | .resultWidthMismatch _ _ _
  | .badSchema _
  | .badOption _ _ _ => true
  | .wrongRowWidth _ _ _
  | .predicateFailed _
  | .rowLimitExceeded _
  | .inputFailed _ => false

end Fault

end StreamJoin
