import Std.Data.TreeMap
import StreamJoin.Fault
import StreamJoin.Text.Blank
import StreamJoin.Text.Numeral

namespace StreamJoin

/-!
# Join options

The options of one join, and how they are read from the text options of a query.
Query options that the join does not know belong to other operators and are
ignored.
-/

/--
The options of a join: how many rows its broadcast table may hold, if limited.
-/
structure JoinOptions where
  rowLimit : Option Nat
  deriving Repr, DecidableEq

namespace JoinOptions

/-- The options of a join that sets none: its broadcast table is not limited. -/
def default : JoinOptions := ⟨none⟩

/-- The name of the row limit among the options of a query. -/
def rowLimitKey : String := "maxRowsInJoin"

/-- Read a row limit; blanks around the numeral do not count. -/
def readRowLimit (value : String) : Except Fault Nat :=
  match readNumeral (trimBlanks value.toList) with
  | .ok limit => .ok limit
  | .error problem =>
      .error (.badOption rowLimitKey value problem.message)

/-- Read the options of a join from the options of a query. -/
def ofQueryOptions
    (options : Std.TreeMap String String) :
    Except Fault JoinOptions :=
  match options[rowLimitKey]? with
  | none => .ok default
  | some value =>
      match readRowLimit value with
      | .ok limit => .ok ⟨some limit⟩
      | .error fault => .error fault

end JoinOptions

end StreamJoin
