import ProtoSchema.Text.Replace

/-!
# Config — how the output can be adjusted

A configuration has lines for the top of every output, and a wrapper for the result types of
methods, in which a pair of braces stands for the type.  Both may hold half a surrogate pair, shown
as the replacement character; an output with such a half cannot be written.
-/

namespace ProtoSchema

open Text

/-- **A configuration.** -/
structure Config where
  /-- Lines for the top of the output. -/
  imports : List String
  /-- The wrapper of result types. -/
  wrapper : Option String
  /-- A line holds half a surrogate pair. -/
  halfImports : Bool
  /-- The wrapper holds half a surrogate pair. -/
  halfWrapper : Bool
deriving Repr, DecidableEq, Inhabited

namespace Config

/-- No extra lines and no wrapper. -/
def default : Config := ⟨[], none, false, false⟩

/-- What stands for the type in a wrapper. -/
def hole : String := "\x7b\x7d"

/-- Puts a type into every hole of a wrapper. -/
def fill (wrapper type : String) : String :=
  String.ofList (replaceAll (Rule.phrase hole.toList type.toList) wrapper.toList)

/-- **The result type of a method**, wrapped unless the wrapper is missing or empty. -/
def wrapResult (c : Config) (type : String) : String :=
  match c.wrapper with
  | some w => if w.isEmpty then type else fill w type
  | none => type

/-- The lines for the top of the output, each without semicolons and with one at its end. -/
def headerLines (c : Config) : List String :=
  c.imports.map fun line => String.ofList (line.toList.filter (· ≠ ';')) ++ ";\n"

end Config

end ProtoSchema
