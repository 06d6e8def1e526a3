import StreamJoin.Json.Document
import StreamJoin.Json.Member
import StreamJoin.Json.Number
import StreamJoin.Join.Options

namespace StreamJoin

/-!
# Join options as JSON

The options are an object, or the array of its fields.  A field that is not given
has its default.
-/

namespace JoinOptions

/-- The options as a JSON document. -/
def toJson (options : JoinOptions) : Json :=
  let limit : Json :=
    match options.rowLimit with
    | some limit => .number (.ofInt limit)
    | none => .null
  .object [(unitsOfText rowLimitKey, limit)]

/-- The options with a given row limit. -/
def ofLimitJson? : Json → Option JoinOptions
  | .null => some ⟨none⟩
  | .number number =>
      (number.value?.bind (NumberValue.inRange? 0 wordBound)).map fun limit =>
        ⟨some limit.toNat⟩
  | _ => none

/-- The options that a JSON document stands for. -/
def ofJson? : Json → Option JoinOptions
  | .array [] => some default
  | .array [limit] => ofLimitJson? limit
  | .object members =>
      match Json.namedMembers? members with
      | none => none
      | some named =>
          match Json.contentsOf rowLimitKey named with
          | [] => some default
          | [limit] => ofLimitJson? limit
          | _ => none
  | _ => none

/-- The options as JSON text. -/
def toJsonText (options : JoinOptions) : String := options.toJson.toText

/-- The options that a JSON text stands for. -/
def ofJsonText? (source : String) : Option JoinOptions :=
  (Json.ofText? source).bind ofJson?

end JoinOptions

end StreamJoin
