import ProtoSchema.ImportTable

/-!
# ImportTable/Step — histories of an import table

A table is reached from the empty one by registering paths, moving the last import under another
name and resolving type tokens.  Each step has an answer.
-/

namespace ProtoSchema

/-- What can be done to an import table. -/
inductive ImportStep
  | register (path : String)
  | rekeyLast (name : String)
  | resolve (token : String)
deriving Repr, DecidableEq, Inhabited

/-- The answer to a step. -/
inductive ImportAnswer
  /-- The import is registered under this name. -/
  | registered (name : String)
  /-- The import that was moved had this name; there was none in an empty table. -/
  | rekeyed (old : Option String)
  /-- The token is this reference. -/
  | resolved (ref : TypeRef)
deriving Repr, DecidableEq, Inhabited

namespace ImportTable

/-- **Takes a step.** -/
def apply (t : ImportTable) : ImportStep → ImportAnswer × ImportTable
  | .register path => (.registered (stemOfPath path), t.register path)
  | .rekeyLast name => match t.rekeyLast name with
    | some (old, t) => (.rekeyed (some old), t)
    | none => (.rekeyed none, t)
  | .resolve token => (.resolved (t.resolve token).1, (t.resolve token).2)

/-- The table after a list of steps. -/
def run (t : ImportTable) (steps : List ImportStep) : ImportTable :=
  steps.foldl (fun t s => (t.apply s).2) t

end ImportTable

end ProtoSchema
