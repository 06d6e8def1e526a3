import StreamJoin.Json.Document
import StreamJoin.Json.Member
import StreamJoin.Schema.Basic

namespace StreamJoin

/-!
# Schemas as JSON

A schema is an object with its columns, and a column an object with its name and its
type.  A record may also be given as the array of its fields, and a type as an
object with null under its name.  Names of columns are taken as they are.
-/

namespace ColumnType

/-- A type as a JSON document. -/
def toJson (type : ColumnType) : Json := .text (unitsOfText type.label)

/-- The type that a JSON document stands for. -/
def ofJson? : Json → Option ColumnType
  | .text units => (textOfUnits? units).bind ofLabel?
  | .object [(name, .null)] => (textOfUnits? name).bind ofLabel?
  | _ => none

end ColumnType

namespace Column

/-- A column as a JSON document. -/
def toJson (column : Column) : Json :=
  .object
    [(unitsOfText "name", .text (unitsOfText column.name)),
      (unitsOfText "data_type", column.type.toJson)]

/-- A column from the documents of its fields. -/
def ofFields? (name type : Json) : Option Column :=
  match name, ColumnType.ofJson? type with
  | .text units, some type =>
      (textOfUnits? units).map fun name => ⟨name, type⟩
  | _, _ => none

/-- The column that a JSON document stands for. -/
def ofJson? : Json → Option Column
  | .array [name, type] => ofFields? name type
  | .object members =>
      match Json.namedMembers? members with
      | none => none
      | some named =>
          match Json.single? "name" named, Json.single? "data_type" named with
          | some name, some type => ofFields? name type
          | _, _ => none
  | _ => none

end Column

namespace Schema

/-- A schema as a JSON document. -/
def toJson (schema : Schema) : Json :=
  .object [(unitsOfText "columns", .array (schema.columns.map Column.toJson))]

/-- A schema from the document of its columns. -/
def ofColumnsJson? : Json → Option Schema
  | .array items => (items.mapM Column.ofJson?).map fun columns => ⟨columns⟩
  | _ => none

/-- The schema that a JSON document stands for. -/
def ofJson? : Json → Option Schema
  | .array [columns] => ofColumnsJson? columns
  | .object members =>
      match Json.namedMembers? members with
      | none => none
      | some named => (Json.single? "columns" named).bind ofColumnsJson?
  | _ => none

/-- A schema as JSON text. -/
def toJsonText (schema : Schema) : String := schema.toJson.toText

/-- The schema that a JSON text stands for. -/
def ofJsonText? (source : String) : Option Schema :=
  (Json.ofText? source).bind ofJson?

end Schema

end StreamJoin
