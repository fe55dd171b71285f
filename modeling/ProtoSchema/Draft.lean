import ProtoSchema.ImportTable
import ProtoSchema.Scopes
import ProtoSchema.Text.Quoted

/-!
# Draft — a document while it is read

A draft holds the parts of a document that are read so far.  It becomes a document when no container
is open any more.  Braces that do not match are the only thing that is wrong with a schema text, and
a `ParseError` says where.
-/

namespace ProtoSchema

/-! ## Errors -/

/-- What is wrong with the braces of a schema. -/
inductive BraceFault
  /-- A brace closes a container and none is open. -/
  | strayClose
  /-- The text ends in open containers with these names, outermost first. -/
  | unclosed (names : List String)
deriving Repr, DecidableEq, Inhabited

/-- The words for a fault. -/
def BraceFault.message : BraceFault → String
  | .strayClose => "Closing brace without an open container"
  | .unclosed names =>
    "Unexpected end of input: " ++ toString names.length ++ " container(s) still open ("
      ++ " > ".intercalate names ++ ")"

/-- A statement by its number, counted from one, and its text. -/
structure Place where
  index : Int
  text : Option String
deriving Repr, DecidableEq, Inhabited

/-- A message about a place, or about the text as a whole. -/
def locate (place : Option Place) (message : String) : String :=
  match place with
  | none => message
  | some p =>
    "Statement " ++ toString p.index ++ " (" ++ (p.text.map Text.quoted).getD "None" ++ "): "
      ++ message

/-- **Why a text is no schema**, and at which statement. -/
structure ParseError where
  fault : BraceFault
  place : Option Place
deriving Repr, DecidableEq, Inhabited

/-- The message of a parse error. -/
def ParseError.message (e : ParseError) : String := locate e.place e.fault.message

/-! ## The draft -/

/-- **The parts of a document that are read so far.** -/
structure Draft where
  version : String
  package : String
  imports : ImportTable
  scopes : Scopes
deriving Repr, DecidableEq, Inhabited

namespace Draft

/-- Nothing read yet. -/
def empty : Draft := ⟨"", "", .empty, .empty⟩

/-- Sets the syntax version, unless one is set. -/
def setVersion (d : Draft) (value : String) : Draft :=
  if d.version.isEmpty then { d with version := value } else d

/-- Sets the package, unless one is set. -/
def setPackage (d : Draft) (value : String) : Draft :=
  if d.package.isEmpty then { d with package := value } else d

/-- Registers an import. -/
def register (d : Draft) (path : String) : Draft := { d with imports := d.imports.register path }

/-- Opens a container. -/
def enter (d : Draft) (kind : FrameKind) (name : String) : Draft :=
  { d with scopes := d.scopes.enter kind name }

/-- **The finished document**, if every container is closed. -/
def finish (d : Draft) : Except BraceFault Document :=
  if d.scopes.frames.isEmpty then
    .ok ⟨d.version, d.package, d.imports.entries, d.scopes.entries, d.scopes.services⟩
  else .error (.unclosed d.scopes.openNames)

end Draft

end ProtoSchema
