import ProtoSchema.Draft
import ProtoSchema.Statement
import ProtoSchema.Statement.Parts
import ProtoSchema.Source.Statements

/-!
# Document/Reader — from statements to a document

The statements of a text are accepted one after the other into a draft.  Only a stray closing brace
is refused; a statement that says nothing where it stands is ignored, and a remark says so.  A
comment counts only if it annotates the import in the statement right before it.
-/

namespace ProtoSchema

open Text

/-! ## Remarks -/

/-- What is worth saying about a statement that was accepted. -/
inductive Remark
  /-- It said nothing where it stands. -/
  | ignored
  /-- It opened a container that cannot stand there, whose contents are dropped. -/
  | bodyDropped
  /-- It moved an import under another name. -/
  | rekeyed (old new : String)
deriving Repr, DecidableEq, Inhabited

/-- A remark on a statement, the statement by its number and text. -/
structure Note where
  index : Nat
  text : String
  remark : Remark
deriving Repr, DecidableEq, Inhabited

/-! ## Accepting one statement -/

/-- A draft and perhaps a remark on how it was reached. -/
structure Accepted where
  draft : Draft
  remark : Option Remark
deriving Repr, DecidableEq, Inhabited

namespace Draft

/-- The draft as it is, the statement ignored. -/
def ignore (d : Draft) : Accepted := ⟨d, some .ignored⟩

/-- Takes the new scopes, or ignores the statement if there are none. -/
def withScopes (d : Draft) : Option Scopes → Accepted
  | some s => ⟨{ d with scopes := s }, none⟩
  | none => d.ignore

/-- Moves the last import under the package that a comment names. -/
def annotate (d : Draft) (comment : String) : Accepted :=
  match annotatedPackage? comment with
  | none => ⟨d, none⟩
  | some name => match d.imports.rekeyLast name with
    | none => ⟨d, none⟩
    | some (old, imports) => ⟨{ d with imports }, some (.rekeyed old name)⟩

/-- Accepts an option. -/
def acceptSetting (d : Draft) (tokens : List String) : Accepted :=
  match Setting.ofTokens? tokens with
  | some o => d.withScopes (d.scopes.addSetting o)
  | none => d.ignore

/-- Accepts a message, enum or service, which has to open its body. -/
def acceptContainer (d : Draft) (kind : FrameKind) (s : Statement) : Accepted :=
  if s.opensBody then
    ⟨d.enter kind (s.tokens.getD 1 ""),
      if d.scopes.place kind = .skipped then some .bodyDropped else none⟩
  else d.ignore

/-- Accepts a method where a service is open.  A body it opens is skipped in any case. -/
def acceptRpc (d : Draft) (s : Statement) : Accepted :=
  let ts := rpcTokens s.text.toList
  let read := match RpcLine.ofTokens? ts with
    | some l =>
      if d.scopes.current = some .service then
        let (argument, imports) := d.imports.resolve l.argument
        let (result, imports) := imports.resolve l.result
        withScopes { d with imports } (d.scopes.addRpc ⟨l.name, argument, result⟩)
      else d.ignore
    | none => d.ignore
  if s.opensBody then ⟨read.draft.enter .skipped (ts.getD 1 "rpc"), read.remark⟩ else read

/-- Accepts a field where a message is open. -/
def acceptField (d : Draft) (tokens : List String) : Accepted :=
  match FieldLine.ofTokens? tokens with
  | some l =>
    let (type, imports) := d.imports.resolve l.type
    withScopes { d with imports }
      ((d.scopes.addField l.name type l.number l.repeated l.optional).map Prod.snd)
  | none => d.ignore

/-- Accepts a value where an enum is open. -/
def acceptEnumValue (d : Draft) (tokens : List String) : Accepted :=
  match EnumValue.ofTokens? tokens with
  | some v => d.withScopes (d.scopes.addEnumValue v)
  | none => d.ignore

/-- Accepts a statement without keyword: a field or a value, by what is open. -/
def acceptMember (d : Draft) (tokens : List String) : Accepted :=
  match d.scopes.current with
  | some .message => d.acceptField tokens
  | some .enum => d.acceptEnumValue tokens
  | _ => d.ignore

/-- Closes the innermost container; refused if none is open. -/
def acceptClosing (d : Draft) : Option Accepted :=
  d.scopes.leave.map fun s => ⟨{ d with scopes := s }, none⟩

/-- **Accepts a statement**, given the kind of the one before it.  Nothing but a stray closing brace
is refused. -/
def accept (d : Draft) (previous : Option StatementKind) (s : Statement) : Option Accepted :=
  match s.kind with
  | .comment => some (if previous = some .importing then d.annotate s.text else ⟨d, none⟩)
  | .version => some ⟨((argument? s.tokens).map d.setVersion).getD d, none⟩
  | .package => some ⟨((argument? s.tokens).map d.setPackage).getD d, none⟩
  | .importing => some ⟨((argument? s.tokens).map d.register).getD d, none⟩
  | .setting => some (d.acceptSetting s.tokens)
  | .message => some (d.acceptContainer .message s)
  | .enum => some (d.acceptContainer .enum s)
  | .service => some (d.acceptContainer .service s)
  | .rpc => some (d.acceptRpc s)
  | .closing => d.acceptClosing
  | .block => some ⟨d.enter .skipped (s.tokens.headD ""), none⟩
  | .reserved => some ⟨d, none⟩
  | .field => some (d.acceptMember s.tokens)

end Draft

/-! ## Reading a list of statements -/

/-- The outcome of reading, and the remarks made on the way. -/
structure Reading (α : Type) where
  result : Except ParseError α
  notes : List Note
deriving Inhabited

/-- Reads statements into a draft, the first of them being number `index`. -/
def Draft.readFrom (d : Draft) (previous : Option StatementKind) (index : Nat) :
    List String → Reading Draft
  | [] => ⟨.ok d, []⟩
  | text :: texts =>
    let s := Statement.ofText text
    match d.accept previous s with
    | none => ⟨.error ⟨.strayClose, some ⟨index, text⟩⟩, []⟩
    | some a =>
      let rest := a.draft.readFrom (some s.kind) (index + 1) texts
      ⟨rest.result, (a.remark.toList.map fun r => ⟨index, text, r⟩) ++ rest.notes⟩

namespace Document

/-- **Reads a document from its statements**, with the remarks made on the way. -/
def read (statements : List String) : Reading Document :=
  let reading := Draft.empty.readFrom none 1 statements
  ⟨do
    let d ← reading.result
    d.finish.mapError fun fault => ⟨fault, none⟩, reading.notes⟩

/-- The document that statements make. -/
def ofStatements (statements : List String) : Except ParseError Document := (read statements).result

/-- **The document of a schema text.** -/
def ofText (text : String) : Except ParseError Document := ofStatements (Source.statements text)

end Document

end ProtoSchema
