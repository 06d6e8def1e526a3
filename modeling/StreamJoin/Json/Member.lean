import StreamJoin.Json.Basic

namespace StreamJoin

/-!
# Members of JSON objects

Records are read from objects by the names of their members.  Members with unknown
names are ignored, whatever they hold, but a name that is no text is refused.
-/

namespace Json

/-- Members with their names as texts, if all names are texts. -/
def namedMembers? : List (List JsonUnit × Json) → Option (List (String × Json))
  | [] => some []
  | (units, content) :: rest =>
      match textOfUnits? units, namedMembers? rest with
      | some name, some later => some ((name, content) :: later)
      | _, _ => none

/-- The contents of all members with a name, in order. -/
def contentsOf (name : String) (members : List (String × Json)) : List Json :=
  (members.filter fun member => member.1 = name).map Prod.snd

/-- The content of the only member with a name. -/
def single? (name : String) (members : List (String × Json)) : Option Json :=
  match contentsOf name members with
  | [content] => some content
  | _ => none

end Json

end StreamJoin
