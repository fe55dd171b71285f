import ProtoSchema.FilePath
import ProtoSchema.Host

/-!
# FileTree — files in memory

A tree holds its folders and files by the names on the way from the root.  Looking a path up follows
its parts, and every part but the last has to lead into a folder, one that stays or goes up as well.
A `World` is a tree with what a run has printed; it is a host.
-/

namespace ProtoSchema

/-- The names on the way from the root to a file or folder. -/
abbrev Location := List String

/-- **Folders and files.**  Of two entries for one location the first counts. -/
structure FileTree where
  folders : List Location
  files : List (Location × ByteArray)
  /-- Where relative paths start. -/
  current : Location
deriving Inhabited

namespace FileTree

/-! ## Looking up -/

/-- What stands at a location. -/
def kindAt (t : FileTree) (l : Location) : Option FileKind :=
  if l ∈ t.folders then some .folder
  else if (t.files.lookup l).isSome then some .file
  else none

/-- One step from a folder. -/
def step (l : Location) (part : String) : Location :=
  if FilePath.stays part then l else if part = ".." then l.dropLast else l ++ [part]

/-- Follows the parts of a path from a location. -/
def follow (t : FileTree) : Location → List String → Except FileFault Location
  | l, [] => .ok l
  | l, part :: rest => match t.kindAt l with
    | some .folder =>
      if FilePath.partLimit < part.utf8ByteSize then .error .nameTooLong
      else t.follow (step l part) rest
    | some .file => .error .throughFile
    | none => .error .missing

/-- **The location a path leads to**, whether something stands there or not. -/
def locate (t : FileTree) (path : String) : Except FileFault Location :=
  if path.toList.contains '\x00' then .error .invalidName
  else if path = "" then .error .missing
  else if FilePath.lengthLimit < path.utf8ByteSize then .error .nameTooLong
  else t.follow (if FilePath.isAbsolute path then [] else t.current) (FilePath.parts path)

/-- What a path leads to, or why it leads to nothing. -/
def kindOf (t : FileTree) (path : String) : Except FileFault FileKind :=
  match t.locate path with
  | .ok l => match t.kindAt l with
    | some kind => .ok kind
    | none => .error .missing
  | .error fault => .error fault

/-- The name of a location that stands in a folder. -/
def nameIn? (folder l : Location) : Option String :=
  if l.dropLast = folder then l.getLast? else none

/-- The names in a folder. -/
def namesIn (t : FileTree) (path : String) : List String :=
  match t.locate path with
  | .ok l => (t.folders ++ t.files.map Prod.fst).filterMap (nameIn? l)
  | .error _ => []

/-! ## Reading and writing -/

/-- The contents of the file a path leads to. -/
def read (t : FileTree) (path : String) : Except FileFault ByteArray :=
  match t.locate path with
  | .error e => .error e
  | .ok l =>
    if l ∈ t.folders then .error .isFolder
    else match t.files.lookup l with
      | some bytes => .ok bytes
      | none => .error .missing

/-- Puts contents in the place of a file's, or at the end. -/
def writeAt (l : Location) (bytes : ByteArray) : List (Location × ByteArray) →
    List (Location × ByteArray)
  | [] => [(l, bytes)]
  | f :: fs => if f.1 = l then (l, bytes) :: fs else f :: writeAt l bytes fs

/-- **Gives the file a path leads to new contents.** -/
def write (t : FileTree) (path contents : String) : Except FileFault FileTree :=
  match t.locate path with
  | .error e => .error e
  | .ok l =>
    if l ∈ t.folders then .error .isFolder
    else .ok { t with files := writeAt l contents.toUTF8 t.files }

end FileTree

/-! ## A host in memory -/

/-- **A file tree and what was printed.** -/
structure World where
  tree : FileTree
  said : String
  warned : String
deriving Inhabited

instance : Host (StateM World) where
  currentFolder := do return "/" ++ "/".intercalate (← get).tree.current
  kindOf path := do return (← get).tree.kindOf path
  namesIn path := do return (← get).tree.namesIn path
  read path := do return (← get).tree.read path
  write path contents := do
    let w ← get
    match w.tree.write path contents with
    | .ok tree => set { w with tree }; return .ok ()
    | .error e => return .error e
  say line := modify fun w => { w with said := w.said ++ line ++ "\n" }
  warn line := modify fun w => { w with warned := w.warned ++ line ++ "\n" }

end ProtoSchema
