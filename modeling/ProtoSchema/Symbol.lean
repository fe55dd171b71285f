import ProtoSchema.Document

/-!
# Symbol — declarations by their path and flat name

Messages and enums are declared at a path: the names of the messages around them and their own.  The
output has no nesting, so a declaration is known there by its *flat name*, the path joined by double
underscores.  `declared` lists the declarations of a body, each before those nested in it.
-/

namespace ProtoSchema

/-- What stands between the names of a path in a flat name. -/
def flatSeparator : String := "__"

/-- **The flat name of a path.** -/
def flatten (path : List String) : String := flatSeparator.intercalate path

/-- The two kinds of declarations. -/
inductive DeclarationKind
  | message
  | enum
deriving Repr, DecidableEq, Inhabited

/-- The kind of a declaration. -/
def Declaration.kind : Declaration → DeclarationKind
  | .message .. => .message
  | .enum _ => .enum

/-- A declaration and the path it is declared at. -/
structure Declared where
  path : List String
  declaration : Declaration
deriving Repr, DecidableEq, Inhabited

mutual

/-- What an entry inside `parent` declares, the entry itself first. -/
def Entry.declared (parent : List String) : Entry → List Declared
  | .field _ => []
  | .setting _ => []
  | .enum d => [⟨parent ++ [d.name], .enum d⟩]
  | .message name body =>
    ⟨parent ++ [name], .message name body⟩ :: declaredIn (parent ++ [name]) body

/-- **The declarations of a body inside `parent`**, each before those nested in it. -/
def declaredIn (parent : List String) : List Entry → List Declared
  | [] => []
  | e :: es => e.declared parent ++ declaredIn parent es

end

/-- The declarations of a document, each before those nested in it. -/
def Document.declared (d : Document) : List Declared := declaredIn [] d.entries

/-- **A declaration of a document**: its number, path and flat name. -/
structure Symbol where
  id : Nat
  path : List String
  flatName : String
  kind : DeclarationKind
deriving Repr, DecidableEq, Inhabited

namespace Symbol

/-- The symbol of the declaration with number `id`. -/
def ofDeclared (id : Nat) (d : Declared) : Symbol :=
  ⟨id, d.path, flatten d.path, d.declaration.kind⟩

/-- The last name of the path. -/
def shortName (s : Symbol) : String := s.path.getLastD ""

end Symbol

/-- The symbols of a document, numbered in the order of `declared`. -/
def Document.symbols (d : Document) : List Symbol :=
  d.declared.zipIdx.map fun (declared, id) => Symbol.ofDeclared id declared

end ProtoSchema
