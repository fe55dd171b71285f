import ProtoSchema.ImportTable.Step
import ProtoSchema.Scopes.Step

/-!
# Draft/Step — histories of a draft

A draft is reached from the empty one by setting its version and package and by the steps of its
scopes and of its import table.  Finishing it leaves it as it is.
-/

namespace ProtoSchema

/-- What can be done to a draft. -/
inductive DraftStep
  | setVersion (value : String)
  | setPackage (value : String)
  | finish
  | imports (step : ImportStep)
  | scopes (step : ScopeStep)
deriving Repr, DecidableEq, Inhabited

/-- The answer to a step. -/
inductive DraftAnswer
  | done
  | finished (document : Document)
  | failed (error : ParseError)
  | imports (answer : ImportAnswer)
  | scopes (answer : ScopeAnswer)
deriving Repr, DecidableEq, Inhabited

namespace Draft

/-- **Takes a step.** -/
def apply (d : Draft) : DraftStep → DraftAnswer × Draft
  | .setVersion value => (.done, d.setVersion value)
  | .setPackage value => (.done, d.setPackage value)
  | .finish => match d.finish with
    | .ok document => (.finished document, d)
    | .error fault => (.failed ⟨fault, none⟩, d)
  | .imports step =>
    let (answer, imports) := d.imports.apply step
    (.imports answer, { d with imports })
  | .scopes step =>
    let (answer, scopes) := d.scopes.apply step
    (.scopes answer, { d with scopes })

/-- The draft after a list of steps. -/
def run (d : Draft) (steps : List DraftStep) : Draft :=
  steps.foldl (fun d s => (d.apply s).2) d

end Draft

end ProtoSchema
