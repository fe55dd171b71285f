/-!
# Json — values with ordered members

An object keeps its members in order.  Integers are exact and of any size; other numbers are kept as
they were written, since nothing computes with them.  A string may hold half a surrogate pair, which
is no character; such a string is told apart from the others.
-/

namespace ProtoSchema

/-- **A JSON value.** -/
inductive Json
  | null
  | bool (value : Bool)
  | int (value : Int)
  | real (literal : String)
  | text (value : String)
  /-- A string with halves of surrogate pairs, each shown as the replacement character. -/
  | halfText (value : String)
  | list (items : List Json)
  | object (members : List (String × Json))
deriving Repr, BEq, Inhabited

namespace Json

/-- The last member of a list that has the key. -/
def lastMember (key : String) (members : List (String × Json)) : Option Json :=
  members.reverse.lookup key

/-- The strings of a list of values, if they all are strings. -/
def texts? : List Json → Option (List String)
  | [] => some []
  | text s :: js => (texts? js).map (s :: ·)
  | halfText s :: js => (texts? js).map (s :: ·)
  | _ :: _ => none

/-- The value is a string with half a surrogate pair in it. -/
def isHalf : Json → Bool
  | halfText _ => true
  | _ => false

end Json

end ProtoSchema
