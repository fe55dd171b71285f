import ProtoSchema.Document

/-!
# ImportTable — the imports of a file while it is read

The table keeps imports in order of registration, each under a name of its own.  Registering under
a name that is taken replaces what stands there.  A package annotation moves the last of the table
under another name.  Resolving a reference whose qualifier names an import notes the use of the
type there.
-/

namespace ProtoSchema

open TypeRef

/-! ## Import paths -/

/-- The last part of a path, up to its first dot. -/
def stemOfPath (path : String) : String :=
  String.ofList ((((path.toList.splitOn '/').getLastD []).splitOn '.').headD [])

/-- The folder part of a path, `.` if it has none. -/
def directoryOfPath (path : String) : String :=
  match (path.toList.splitOn '/').dropLast with
  | [] => "."
  | s :: ss => String.ofList (List.intercalate ['/'] (s :: ss))

/-- The import of a path, nothing used from it so far. -/
def Import.ofPath (path : String) : Import := ⟨stemOfPath path, directoryOfPath path, path, []⟩

/-! ## The table -/

/-- **The imports registered so far.** -/
structure ImportTable where
  entries : List Import
deriving Repr, DecidableEq, Inhabited

namespace ImportTable

/-- No imports. -/
def empty : ImportTable := ⟨[]⟩

/-- The names in use, in order. -/
def names (t : ImportTable) : List String := t.entries.map Import.name

/-- Puts an import in the place of the one of its name, or else at the end. -/
def insertInto (new : Import) : List Import → List Import
  | [] => [new]
  | i :: is => if i.name = new.name then new :: is else i :: insertInto new is

/-- Adds an import or replaces the one of its name. -/
def insert (t : ImportTable) (new : Import) : ImportTable := ⟨insertInto new t.entries⟩

/-- **Registers the import of a path** under the path's stem. -/
def register (t : ImportTable) (path : String) : ImportTable := t.insert (Import.ofPath path)

/-- **Moves the last import under another name**, in place of the import of that name if there is
one.  The result has the name it was under; an empty table has no last import. -/
def rekeyLast (t : ImportTable) (name : String) : Option (String × ImportTable) :=
  t.entries.getLast?.map fun last =>
    (last.name, (ImportTable.mk t.entries.dropLast).insert { last with name })

/-- Notes that a type of this import is used. -/
def noteUse (localName : String) (i : Import) : Import :=
  if localName ∈ i.used then i else { i with used := i.used ++ [localName] }

/-- Notes the use of a type in the import of the given name. -/
def noteUseIn (name localName : String) : List Import → List Import
  | [] => []
  | i :: is => if i.name = name then noteUse localName i :: is else i :: noteUseIn name localName is

/-- The table after a reference was used. -/
def use (t : ImportTable) (r : TypeRef) : ImportTable :=
  match r.qualifier with
  | some q => ⟨noteUseIn q r.localName t.entries⟩
  | none => t

/-- **Reads a type token and notes its use.** -/
def resolve (t : ImportTable) (token : String) : TypeRef × ImportTable :=
  (ofToken token, t.use (ofToken token))

end ImportTable

end ProtoSchema
