/-!
# TypeRef — dotted references to types

A reference is written as names with dots between them, perhaps with dots in front that say nothing.
Its last name is the type's own; the names before it, if any, are its qualifier.
-/

namespace ProtoSchema

/-- A reference to a type: its own name and, if it was dotted, what stood before the last dot. -/
structure TypeRef where
  localName : String
  qualifier : Option String
deriving Repr, DecidableEq, Inhabited

namespace TypeRef

/-- Names with a dot between neighbours. -/
def joinDots (segments : List (List Char)) : List Char := List.intercalate ['.'] segments

/-- The reference made of dotted names: the last one and those before it. -/
def ofSegments (segments : List (List Char)) : TypeRef where
  localName := String.ofList (segments.getLastD [])
  qualifier := match segments.dropLast with
    | [] => none
    | s :: ss => some (String.ofList (joinDots (s :: ss)))

/-- **Splits a token at its last dot**, leading dots left out. -/
def ofToken (token : String) : TypeRef :=
  ofSegments ((token.toList.dropWhile (· = '.')).splitOn '.')

/-- The reference as it is written, without leading dots. -/
def dotted (r : TypeRef) : String :=
  match r.qualifier with
  | some q => if q.isEmpty then r.localName else q ++ "." ++ r.localName
  | none => r.localName

end TypeRef

end ProtoSchema
