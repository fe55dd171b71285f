import ProtoSchema.Document

/-!
# Scopes — the containers open while a file is read

A frame is open for every brace that is not closed yet, the innermost first, and holds the entries
read into it so far.  Closing a frame hands the finished message or enum to the frame around it, or
to the document, and a finished service to the document.  A container that cannot stand where it is
opened gets a *skipped* frame: its braces are counted and its contents are dropped.
-/

namespace ProtoSchema

/-! ## Frames -/

/-- The kinds of frames. -/
inductive FrameKind
  | message
  | enum
  | service
  | skipped
deriving Repr, DecidableEq, Inhabited

/-- **An open container** and what was read into it, in source order. -/
inductive Frame
  | message (name : String) (body : List Entry)
  | enum (name : String) (body : List EnumEntry)
  | service (name : String) (body : List ServiceEntry)
  | skipped (name : String)
deriving Repr, DecidableEq, Inhabited

namespace Frame

/-- The kind of a frame. -/
def kind : Frame → FrameKind
  | message .. => .message
  | enum .. => .enum
  | service .. => .service
  | skipped _ => .skipped

/-- The name a frame was opened with. -/
def name : Frame → String
  | message name _ => name
  | enum name _ => name
  | service name _ => name
  | skipped name => name

/-- A frame of the given kind with nothing in it. -/
def ofKind (kind : FrameKind) (name : String) : Frame :=
  match kind with
  | .message => message name []
  | .enum => enum name []
  | .service => service name []
  | .skipped => skipped name

@[simp] theorem kind_ofKind (k : FrameKind) (name : String) : (ofKind k name).kind = k := by
  cases k <;> rfl

@[simp] theorem name_ofKind (k : FrameKind) (name : String) : (ofKind k name).name = name := by
  cases k <;> rfl

end Frame

/-! ## The state -/

/-- **The open frames**, innermost first, and the finished parts of the document. -/
structure Scopes where
  frames : List Frame
  entries : List Entry
  services : List Service
deriving Repr, DecidableEq, Inhabited

namespace Scopes

/-- Nothing open and nothing finished. -/
def empty : Scopes := ⟨[], [], []⟩

/-- The number of open frames. -/
def depth (s : Scopes) : Nat := s.frames.length

/-- The kind of the innermost frame. -/
def current (s : Scopes) : Option FrameKind := s.frames.head?.map Frame.kind

/-- The names of the open frames, outermost first. -/
def openNames (s : Scopes) : List String := s.frames.reverse.map Frame.name

/-! ## Opening and closing -/

/-- The kind a container gets inside a frame of kind `current`: messages and enums stand in messages
and at the top, services at the top alone; elsewhere they are skipped. -/
def placed (current : Option FrameKind) : FrameKind → FrameKind
  | .message => if current = none || current = some .message then .message else .skipped
  | .enum => if current = none || current = some .message then .enum else .skipped
  | .service => if current = none then .service else .skipped
  | .skipped => .skipped

/-- The kind a container gets where the scopes stand. -/
def place (s : Scopes) (kind : FrameKind) : FrameKind := placed s.current kind

/-- **Opens a container**, skipped where it cannot stand. -/
def enter (s : Scopes) (kind : FrameKind) (name : String) : Scopes :=
  { s with frames := Frame.ofKind (s.place kind) name :: s.frames }

/-- Hands an entry to the innermost frame if that is a message, or to the document if none is open.
-/
def attach (s : Scopes) (e : Entry) : Scopes :=
  match s.frames with
  | [] => { s with entries := s.entries ++ [e] }
  | .message name body :: fs => { s with frames := .message name (body ++ [e]) :: fs }
  | _ => s

/-- **Closes the innermost frame** and hands on what it holds; none is open without result. -/
def leave (s : Scopes) : Option Scopes :=
  match s.frames with
  | [] => none
  | .message name body :: fs => some (attach { s with frames := fs } (.message name body))
  | .enum name body :: fs => some (attach { s with frames := fs } (.enum ⟨name, body⟩))
  | .service name body :: fs =>
    some { s with frames := fs, services := s.services ++ [⟨name, body⟩] }
  | .skipped _ :: fs => some { s with frames := fs }

/-! ## Adding entries

Each of these answers nothing where the innermost frame does not take the entry. -/

/-- Adds an option, which every place but a skipped frame takes. -/
def addSetting (s : Scopes) (o : Setting) : Option Scopes :=
  match s.frames with
  | [] => some { s with entries := s.entries ++ [.setting o] }
  | .message name body :: fs => some { s with frames := .message name (body ++ [.setting o]) :: fs }
  | .enum name body :: fs => some { s with frames := .enum name (body ++ [.setting o]) :: fs }
  | .service name body :: fs => some { s with frames := .service name (body ++ [.setting o]) :: fs }
  | .skipped _ :: _ => none

/-- Adds a field to a message; its order is the number of fields before it. -/
def addField (s : Scopes) (name : String) (type : TypeRef) (number : Int)
    (repeated optional : Bool) : Option (Field × Scopes) :=
  match s.frames with
  | .message message body :: fs =>
    let field := ⟨name, type, number, (Entry.fields body).length, repeated, optional⟩
    some (field, { s with frames := .message message (body ++ [.field field]) :: fs })
  | _ => none

/-- Adds a value to an enum. -/
def addEnumValue (s : Scopes) (v : EnumValue) : Option Scopes :=
  match s.frames with
  | .enum name body :: fs => some { s with frames := .enum name (body ++ [.value v]) :: fs }
  | _ => none

/-- Adds a method to a service. -/
def addRpc (s : Scopes) (r : Rpc) : Option Scopes :=
  match s.frames with
  | .service name body :: fs => some { s with frames := .service name (body ++ [.rpc r]) :: fs }
  | _ => none

end Scopes

end ProtoSchema
