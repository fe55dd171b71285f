/-!
# Host — what a run asks of the system around it

A run looks at folders and files, reads and writes files, and prints to two streams.  `Host` is the
list of these requests; the runs of this library are written against it, so that they can be studied
on a file tree in memory and used on a disk.
-/

namespace ProtoSchema

/-- What a path leads to. -/
inductive FileKind
  | file
  | folder
deriving Repr, DecidableEq, Inhabited

/-- Why a file cannot be read or written. -/
inductive FileFault
  /-- Nothing is there, or the folder to write into is not. -/
  | missing
  /-- A folder is there. -/
  | isFolder
  /-- The path goes on after a file. -/
  | throughFile
  /-- No file can have this name. -/
  | invalidName
  /-- A name on the way, or the path as a whole, is too long. -/
  | nameTooLong
deriving Repr, DecidableEq, Inhabited

/-- Something was found, and it is of this kind. -/
def FileKind.found (k : FileKind) : Except FileFault FileKind → Bool
  | .ok k' => k = k'
  | .error _ => false

/-- **The requests of a run.** -/
class Host (m : Type → Type) where
  /-- The folder that relative paths start at. -/
  currentFolder : m String
  /-- What a path leads to, or why it leads to nothing. -/
  kindOf : String → m (Except FileFault FileKind)
  /-- The names in a folder, in any order. -/
  namesIn : String → m (List String)
  /-- The contents of a file. -/
  read : String → m (Except FileFault ByteArray)
  /-- Gives a file new contents. -/
  write : String → String → m (Except FileFault Unit)
  /-- Prints a line of the results. -/
  say : String → m Unit
  /-- Prints a line about the run itself. -/
  warn : String → m Unit

/-- A run that can fail asks the host it runs on. -/
instance {ε : Type} {m : Type → Type} [Monad m] [Host m] : Host (ExceptT ε m) where
  currentFolder := ExceptT.lift Host.currentFolder
  kindOf path := ExceptT.lift (Host.kindOf path)
  namesIn path := ExceptT.lift (Host.namesIn path)
  read path := ExceptT.lift (Host.read path)
  write path contents := ExceptT.lift (Host.write path contents)
  say line := ExceptT.lift (Host.say line)
  warn line := ExceptT.lift (Host.warn line)

end ProtoSchema
