import StreamJoin.Fault
import StreamJoin.Text.Blank

namespace StreamJoin

/-!
# Kinds of joins

A planner knows eight types of joins; six of them are kinds that are executed here.
A kind says which rows besides the matching pairs belong to the result.
-/

/-- The types of joins that a planner may ask for. -/
inductive JoinType where
  | inner
  | left
  | right
  | full
  | semi
  | anti
  | asOf
  | leftAsOf
  deriving Repr, DecidableEq

/-- The name of a join type. -/
def JoinType.label : JoinType → String
  | .inner => "INNER"
  | .left => "LEFT"
  | .right => "RIGHT"
  | .full => "FULL"
  | .semi => "SEMI"
  | .anti => "ANTI"
  | .asOf => "ASOF"
  | .leftAsOf => "LEFT_ASOF"

/--
The kinds of joins that are executed: matching pairs only; with every left row;
with every right row; with both; the left rows with a partner; the left rows
without one.
-/
inductive JoinKind where
  | inner
  | left
  | right
  | full
  | semi
  | anti
  deriving Repr, DecidableEq

namespace JoinKind

/-- The name of a kind. -/
def label : JoinKind → String
  | .inner => "INNER"
  | .left => "LEFT"
  | .right => "RIGHT"
  | .full => "FULL"
  | .semi => "SEMI"
  | .anti => "ANTI"

/-- The name of a kind in developer texts. -/
def title : JoinKind → String
  | .inner => "Inner"
  | .left => "Left"
  | .right => "Right"
  | .full => "Full"
  | .semi => "Semi"
  | .anti => "Anti"

/-- Whether left rows without a partner are padded with nulls and kept. -/
def padsLeft : JoinKind → Bool
  | .left => true
  | .full => true
  | _ => false

/-- Whether right rows without a partner are padded with nulls and kept. -/
def sweepsRight : JoinKind → Bool
  | .right => true
  | .full => true
  | _ => false

/--
For the kinds that ask only whether a left row's key is present on the right:
whether a row is kept when it is.
-/
def presence? : JoinKind → Option Bool
  | .semi => some true
  | .anti => some false
  | _ => none

/-- The kind that executes a join type. -/
def ofType : JoinType → Except Fault JoinKind
  | .inner => .ok .inner
  | .left => .ok .left
  | .right => .ok .right
  | .full => .ok .full
  | .semi => .ok .semi
  | .anti => .ok .anti
  | .asOf => .error (.unsupportedJoin JoinType.asOf.label)
  | .leftAsOf => .error (.unsupportedJoin JoinType.leftAsOf.label)

/-- Every kind, in the order of declaration. -/
def all : List JoinKind := [.inner, .left, .right, .full, .semi, .anti]

/--
Read the name of a kind; blanks around it and the case of ASCII letters do not
count.
-/
def ofName (name : String) : Except Fault JoinKind :=
  let canonical := (trimBlanks name.toList).map Char.toUpper
  match all.find? fun kind => kind.label.toList = canonical with
  | some kind => .ok kind
  | none => .error (.unsupportedJoin name)

end JoinKind

end StreamJoin
