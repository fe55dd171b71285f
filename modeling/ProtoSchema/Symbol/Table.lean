import ProtoSchema.Symbol

/-!
# Symbol/Table — what the references of a document stand for

A reference without qualifier is a scalar type, or a declaration of the file found from the
innermost message outwards, or unresolved.  A reference with a qualifier is a type of the import of
that name, or external.  The table gives the meaning of every field's and method's types by their
position.
-/

namespace ProtoSchema

/-! ## Scalars -/

/-- The types that scalars become. -/
inductive Scalar
  | number
  | boolean
  | text
deriving Repr, DecidableEq, Inhabited

/-- The name of the type. -/
def Scalar.name : Scalar → String
  | number => "number"
  | boolean => "boolean"
  | text => "string"

/-- **The scalar type of a name**, if it is one. -/
def Scalar.ofName? : String → Option Scalar
  | "double" | "float" => some number
  | "int32" | "int64" | "uint32" | "uint64" | "sint32" | "sint64" => some number
  | "fixed32" | "fixed64" | "sfixed32" | "sfixed64" => some number
  | "bool" => some boolean
  | "string" | "bytes" => some text
  | _ => none

/-! ## Resolved references -/

/-- **What a reference stands for.** -/
inductive Resolved
  /-- A scalar type. -/
  | scalar (scalar : Scalar)
  /-- A declaration of the file, by its flat name. -/
  | declared (name : String)
  /-- A type of an import. -/
  | imported (name : String)
  /-- A type whose qualifier names no import, by a flat name. -/
  | external (name : String)
  /-- A type nobody declares. -/
  | unresolved (name : String)
deriving Repr, DecidableEq, Inhabited

/-- The name that stands for the type in the output. -/
def Resolved.name : Resolved → String
  | scalar s => s.name
  | declared n => n
  | imported n => n
  | external n => n
  | unresolved n => n

/-- The flat names a local name may have inside a scope, innermost first. -/
def candidates (scope : List String) (localName : String) : List String :=
  (List.range (scope.length + 1)).reverse.map fun depth => flatten (scope.take depth ++ [localName])

/-- The parts of a dotted qualifier. -/
def qualifierParts (qualifier : String) : List String :=
  (qualifier.toList.splitOn '.').map String.ofList

/-- The names of a file that a reference may stand for. -/
structure Names where
  /-- The flat names that the file declares. -/
  declared : List String
  /-- The names of its imports. -/
  imports : List String
deriving Repr, DecidableEq, Inhabited

/-- **What a reference made inside `scope` stands for.** -/
def Names.resolve (names : Names) (scope : List String) (r : TypeRef) : Resolved :=
  match r.qualifier with
  | none => match Scalar.ofName? r.localName with
    | some s => .scalar s
    | none => match (candidates scope r.localName).find? (· ∈ names.declared) with
      | some name => .declared name
      | none => .unresolved r.localName
  | some q =>
    if q ∈ names.imports then .imported r.localName
    else .external (flatten (scope ++ qualifierParts q ++ [r.localName]))

/-! ## The table -/

/-- The meaning of a method's two types. -/
structure Signature where
  argument : Resolved
  result : Resolved
deriving Repr, DecidableEq, Inhabited

/-- **The symbols of a document and the meaning of its references.**  A field is found by the number
of its message and its place in the body, a method by the places of its service and of itself. -/
structure SymbolTable where
  symbols : List Symbol
  fields : List ((Nat × Nat) × Resolved)
  rpcs : List ((Nat × Nat) × Signature)
deriving Repr, DecidableEq, Inhabited

/-- The fields of a body with their places in it. -/
def placedFields (body : List Entry) : List (Nat × Field) :=
  body.zipIdx.filterMap fun (e, i) => e.field?.map (i, ·)

/-- The methods of a service with their places in it. -/
def placedRpcs (body : List ServiceEntry) : List (Nat × Rpc) :=
  body.zipIdx.filterMap fun (e, i) => e.rpc?.map (i, ·)

/-- The entries a declaration's fields are among; an enum has no fields. -/
def Declaration.body : Declaration → List Entry
  | .message _ body => body
  | .enum _ => []

/-- The meaning of the fields of the declaration with number `id`. -/
def Names.fieldTypes (names : Names) (id : Nat) (d : Declared) : List ((Nat × Nat) × Resolved) :=
  (placedFields d.declaration.body).map fun (i, f) => ((id, i), names.resolve d.path f.type)

/-- The meaning of the methods of the service with number `id`. -/
def Names.rpcTypes (names : Names) (id : Nat) (s : Service) : List ((Nat × Nat) × Signature) :=
  (placedRpcs s.body).map fun (i, r) =>
    ((id, i), ⟨names.resolve [] r.argument, names.resolve [] r.result⟩)

namespace Document

/-- The names that the references of a document may stand for. -/
def names (d : Document) : Names := ⟨d.symbols.map Symbol.flatName, d.importNames⟩

/-- **The symbol table of a document.** -/
def symbolTable (d : Document) : SymbolTable where
  symbols := d.symbols
  fields := let names := d.names
    d.declared.zipIdx.flatMap fun (decl, id) => names.fieldTypes id decl
  rpcs := let names := d.names
    d.services.zipIdx.flatMap fun (s, id) => names.rpcTypes id s

end Document

namespace SymbolTable

/-- The meaning of a field, by the number of its message and its place. -/
def field? (t : SymbolTable) (id place : Nat) : Option Resolved := t.fields.lookup (id, place)

/-- The meaning of a method's types, by the number of its service and its place. -/
def rpc? (t : SymbolTable) (id place : Nat) : Option Signature := t.rpcs.lookup (id, place)

/-- The first symbol at a path. -/
def find? (t : SymbolTable) (path : List String) : Option Symbol :=
  t.symbols.find? (·.path = path)

end SymbolTable

end ProtoSchema
