import ProtoSchema.TypeRef

/-!
# Document — what a schema file declares

A document lists the imports of a file, its messages, enums and options in source order, and its
services.  Messages nest: the body of a message holds fields, options, enums and messages.  The same
entries stand at the top of a document, where there are no fields.
-/

namespace ProtoSchema

/-! ## Entries -/

/-- An option and its value, the value as it was written. -/
structure Setting where
  name : String
  value : String
deriving Repr, DecidableEq, Inhabited

/-- A field of a message; `order` is its place among the fields of the message. -/
structure Field where
  name : String
  type : TypeRef
  number : Int
  order : Nat
  repeated : Bool
  optional : Bool
deriving Repr, DecidableEq, Inhabited

/-- A value of an enum. -/
structure EnumValue where
  name : String
  number : Int
deriving Repr, DecidableEq, Inhabited

/-- What stands in the body of an enum. -/
inductive EnumEntry
  | value (value : EnumValue)
  | setting (setting : Setting)
deriving Repr, DecidableEq, Inhabited

/-- An enum. -/
structure EnumDecl where
  name : String
  body : List EnumEntry
deriving Repr, DecidableEq, Inhabited

/-- What stands in the body of a message or at the top of a document. -/
inductive Entry
  | field (field : Field)
  | setting (setting : Setting)
  | enum (decl : EnumDecl)
  | message (name : String) (body : List Entry)
deriving Repr, Inhabited

/-- A message or an enum. -/
inductive Declaration
  | message (name : String) (body : List Entry)
  | enum (decl : EnumDecl)
deriving Repr, Inhabited

/-- A method of a service. -/
structure Rpc where
  name : String
  argument : TypeRef
  result : TypeRef
deriving Repr, DecidableEq, Inhabited

/-- What stands in the body of a service. -/
inductive ServiceEntry
  | rpc (rpc : Rpc)
  | setting (setting : Setting)
deriving Repr, DecidableEq, Inhabited

/-- A service. -/
structure Service where
  name : String
  body : List ServiceEntry
deriving Repr, DecidableEq, Inhabited

/-- An imported file: the name it is referred to by, the folder and path it was imported from, and
the types that were used from it. -/
structure Import where
  name : String
  directory : String
  path : String
  used : List String
deriving Repr, DecidableEq, Inhabited

/-- **A schema file.** -/
structure Document where
  version : String
  package : String
  imports : List Import
  entries : List Entry
  services : List Service
deriving Repr, Inhabited

/-! ## Equality of entries -/

mutual

/-- Decides whether two entries are equal. -/
def Entry.decEq : (a b : Entry) → Decidable (a = b)
  | .field f, .field g => decidable_of_iff (f = g) (by simp)
  | .setting s, .setting t => decidable_of_iff (s = t) (by simp)
  | .enum d, .enum e => decidable_of_iff (d = e) (by simp)
  | .message n b, .message m c =>
    if h : n = m then match Entry.decEqList b c with
      | isTrue h' => isTrue (by rw [h, h'])
      | isFalse h' => isFalse (by simp [h'])
    else isFalse (by simp [h])
  | .field _, .setting _ | .field _, .enum _ | .field _, .message _ _
  | .setting _, .field _ | .setting _, .enum _ | .setting _, .message _ _
  | .enum _, .field _ | .enum _, .setting _ | .enum _, .message _ _
  | .message _ _, .field _ | .message _ _, .setting _ | .message _ _, .enum _ => isFalse (by simp)

/-- Decides whether two bodies are equal. -/
def Entry.decEqList : (a b : List Entry) → Decidable (a = b)
  | [], [] => isTrue rfl
  | a :: as, b :: bs =>
    match Entry.decEq a b, Entry.decEqList as bs with
    | isTrue h, isTrue h' => isTrue (by rw [h, h'])
    | isFalse h, _ => isFalse (by simp [h])
    | _, isFalse h => isFalse (by simp [h])
  | [], _ :: _ | _ :: _, [] => isFalse (by simp)

end

instance : DecidableEq Entry := Entry.decEq

deriving instance DecidableEq for Declaration
deriving instance DecidableEq for Document

/-! ## Views -/

/-- The value an entry of an enum declares. -/
def EnumEntry.value? : EnumEntry → Option EnumValue
  | .value v => some v
  | .setting _ => none

/-- The values of an enum, in source order. -/
def EnumDecl.values (d : EnumDecl) : List EnumValue := d.body.filterMap EnumEntry.value?

/-- The field an entry declares. -/
def Entry.field? : Entry → Option Field
  | .field f => some f
  | _ => none

/-- The message or enum an entry declares. -/
def Entry.declaration? : Entry → Option Declaration
  | .message name body => some (.message name body)
  | .enum d => some (.enum d)
  | _ => none

/-- The fields of a body, in source order. -/
def Entry.fields (body : List Entry) : List Field := body.filterMap Entry.field?

/-- The messages and enums of a body, in source order. -/
def Entry.declarations (body : List Entry) : List Declaration := body.filterMap Entry.declaration?

/-- The method an entry of a service declares. -/
def ServiceEntry.rpc? : ServiceEntry → Option Rpc
  | .rpc r => some r
  | .setting _ => none

/-- The methods of a service, in source order. -/
def Service.rpcs (s : Service) : List Rpc := s.body.filterMap ServiceEntry.rpc?

namespace Document

/-- The names the imports are referred to by. -/
def importNames (d : Document) : List String := d.imports.map Import.name

/-- The first import of that name. -/
def import? (d : Document) (name : String) : Option Import := d.imports.find? (·.name = name)

/-- The messages and enums at the top of the document. -/
def declarations (d : Document) : List Declaration := Entry.declarations d.entries

end Document

end ProtoSchema
