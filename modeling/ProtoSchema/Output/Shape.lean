import ProtoSchema.Symbol.PostOrder
import ProtoSchema.Symbol.Table
import ProtoSchema.Text.Numeral

/-!
# Output/Shape — what is written for a declaration

The two kinds of output describe the same shapes in different words: an enum by its members, a
message by its fields and what their types stand for.  Shapes come in post-order, nested
declarations before the message they stand in.
-/

namespace ProtoSchema

/-! ## Errors -/

/-- Why a document has no output. -/
inductive OutputError
  /-- The symbol table has a number beyond the declarations of the document. -/
  | missingDeclaration
  /-- The symbol table lacks a type of the document. -/
  | missingType
  /-- A number has too many digits to be written. -/
  | numberTooLong
deriving Repr, DecidableEq, Inhabited

/-- The value of an option, or else an error. -/
def orError {α ε : Type} (e : ε) : Option α → Except ε α
  | some a => .ok a
  | none => .error e

/-! ## Shapes -/

/-- A field of a message, its type resolved. -/
structure FieldShape where
  name : String
  type : Resolved
  repeated : Bool
  optional : Bool
deriving Repr, DecidableEq, Inhabited

/-- **What is written for a declaration.** -/
inductive Shape
  | enum (name : String) (members : List EnumValue)
  | record (name : String) (fields : List FieldShape)
deriving Repr, DecidableEq, Inhabited

/-- The name a shape is declared under. -/
def Shape.name : Shape → String
  | enum name _ => name
  | record name _ => name

/-- The shape of a field, by the number of its message and its place in the body. -/
def SymbolTable.fieldShape (t : SymbolTable) (id : Nat) (placed : Nat × Field) :
    Except OutputError FieldShape := do
  let type ← orError .missingType (t.field? id placed.1)
  return ⟨placed.2.name, type, placed.2.repeated, placed.2.optional⟩

/-- The shape of a symbol among the declarations of a document. -/
def SymbolTable.shape (t : SymbolTable) (declared : List Declared) (s : Symbol) :
    Except OutputError Shape := do
  match (← orError .missingDeclaration declared[s.id]?).declaration with
  | .enum d => return .enum s.flatName d.values
  | .message _ body => return .record s.flatName (← (placedFields body).mapM (t.fieldShape s.id))

/-- **The shapes of a document**, by the symbols of a table. -/
def SymbolTable.shapes (t : SymbolTable) (d : Document) : Except OutputError (List Shape) :=
  (postOrder t.symbols).mapM (t.shape d.declared)

/-! ## Lines that both kinds of output share -/

/-- The import of the types a file uses from another; none if it uses none. -/
def Import.line (i : Import) : String :=
  if i.used.isEmpty then ""
  else "import \x7b " ++ ", ".intercalate i.used ++ " \x7d from \"" ++ i.directory ++ "/" ++ i.name
    ++ "\";\n"

/-- The lines that import the types a document uses. -/
def Document.importLines (d : Document) : String := String.join (d.imports.map Import.line)

/-- A member of an enum. -/
def EnumValue.line (v : EnumValue) : Except OutputError String := do
  let number ← orError .numberTooLong (Text.printInt v.number)
  return "  " ++ v.name ++ " = " ++ number ++ ",\n"

/-- The members of an enum. -/
def memberLines (members : List EnumValue) : Except OutputError String :=
  String.join <$> members.mapM EnumValue.line

end ProtoSchema
