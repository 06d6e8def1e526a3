import StreamJoin.Fault
import StreamJoin.Value.Basic

namespace StreamJoin

/-!
# Schemas

A schema is the list of named and typed columns of every row of a stream.  Names
may repeat: the result of a join carries the columns of both inputs.  A schema that
is built from columns has no column with an empty name.
-/

/-- A named and typed column. -/
structure Column where
  name : String
  type : ColumnType
  deriving Repr, DecidableEq

/-- The columns of the rows of a stream. -/
structure Schema where
  columns : List Column
  deriving Repr, DecidableEq

namespace Schema

/-- The schema without columns. -/
def empty : Schema := ⟨[]⟩

/-- The position of the first column whose name is empty. -/
def firstUnnamed? (columns : List Column) : Option Nat :=
  columns.findIdx? fun column => column.name = ""

/-- Build a schema; a column with an empty name is refused. -/
def ofColumns (columns : List Column) : Except Fault Schema :=
  match firstUnnamed? columns with
  | some index =>
      .error (.badSchema ("column " ++ index.repr ++ " has an empty name"))
  | none => .ok ⟨columns⟩

/-- The number of columns. -/
def width (schema : Schema) : Nat := schema.columns.length

/-- The column at a position, if there is one. -/
def column? (schema : Schema) (index : Nat) : Option Column :=
  schema.columns[index]?

/-- The columns of the left schema followed by those of the right one. -/
def join (left right : Schema) : Schema := ⟨left.columns ++ right.columns⟩

/-- The schema as it is shown to the user. -/
def text (schema : Schema) : String :=
  let describe (column : Column) := column.name ++ ":" ++ column.type.label
  "[" ++ String.intercalate ", " (schema.columns.map describe) ++ "]"

end Schema

end StreamJoin
