import ProtoSchema.Draft

/-!
# Scopes/Step — histories of the open containers

Scopes are reached from the empty ones by opening and closing containers and adding entries.  Each
step has an answer; a step that is refused, or that closes where nothing is open, leaves the scopes
as they were.
-/

namespace ProtoSchema

/-- What can be done to the scopes. -/
inductive ScopeStep
  | enter (kind : FrameKind) (name : String)
  /-- Closes the innermost frame; the place is that of the closing brace. -/
  | leave (place : Option Place)
  | addSetting (setting : Setting)
  | addField (name : String) (type : TypeRef) (number : Int) (repeated optional : Bool)
  | addEnumValue (value : EnumValue)
  | addRpc (rpc : Rpc)
deriving Repr, DecidableEq, Inhabited

/-- The answer to a step. -/
inductive ScopeAnswer
  /-- A frame of this kind was opened. -/
  | entered (kind : FrameKind)
  | left
  | failed (error : ParseError)
  | added
  | addedField (field : Field)
  | refused
deriving Repr, DecidableEq, Inhabited

namespace Scopes

/-- The answer to an entry that was added, or refused. -/
def answerTo (s : Scopes) : Option Scopes → ScopeAnswer × Scopes
  | some s => (.added, s)
  | none => (.refused, s)

/-- **Takes a step.** -/
def apply (s : Scopes) : ScopeStep → ScopeAnswer × Scopes
  | .enter kind name => (.entered (s.place kind), s.enter kind name)
  | .leave place => match s.leave with
    | some s => (.left, s)
    | none => (.failed ⟨.strayClose, place⟩, s)
  | .addSetting o => s.answerTo (s.addSetting o)
  | .addField name type number repeated optional =>
    match s.addField name type number repeated optional with
    | some (field, s) => (.addedField field, s)
    | none => (.refused, s)
  | .addEnumValue v => s.answerTo (s.addEnumValue v)
  | .addRpc r => s.answerTo (s.addRpc r)

/-- The scopes after a list of steps. -/
def run (s : Scopes) (steps : List ScopeStep) : Scopes :=
  steps.foldl (fun s step => (s.apply step).2) s

end Scopes

end ProtoSchema
