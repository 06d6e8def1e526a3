import StreamJoin.Fault
import StreamJoin.Key.Basic

namespace StreamJoin

/-!
# Key columns

The columns of a row that make up its key, in order.  Columns may repeat.  Without
any columns every row has the empty key.
-/

/-- The columns of a row that make up its key. -/
structure KeyColumns where
  columns : List Nat
  deriving Repr, DecidableEq

namespace KeyColumns

/-- The number of values in every key. -/
def arity (selected : KeyColumns) : Nat := selected.columns.length

/--
The key of a row.  A column that the row does not have reads as null; rows whose
width was checked have all columns.
-/
def key (selected : KeyColumns) (row : Row) : Key :=
  ⟨selected.columns.map fun column => row[column]?.getD .null⟩

/-- The first selected column that rows of a given width do not have. -/
def firstMissing? (selected : KeyColumns) (width : Nat) : Option Nat :=
  selected.columns.find? fun column => width ≤ column

/-- Refuse columns outside rows of a given width. -/
def check
    (selected : KeyColumns)
    (side : Side)
    (width : Nat) :
    Except Fault Unit :=
  match selected.firstMissing? width with
  | some column => .error (.keyColumnMissing side column width)
  | none => .ok ()

/-- No column is missing exactly when all are below the width. -/
theorem firstMissing?_eq_none_iff (selected : KeyColumns) (width : Nat) :
    selected.firstMissing? width = none ↔
      ∀ column ∈ selected.columns, column < width := by
  simp [firstMissing?]

/-- Key columns are accepted exactly when none is missing. -/
theorem check_eq_ok_iff {selected : KeyColumns} {side : Side} {width : Nat} :
    selected.check side width = .ok () ↔ selected.firstMissing? width = none := by
  unfold check
  cases selected.firstMissing? width <;> simp

end KeyColumns

end StreamJoin
