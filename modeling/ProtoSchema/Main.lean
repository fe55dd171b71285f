import ProtoSchema.CommandLine

/-!
# Main — the program on a disk

The requests of a run are answered by the files of the system and the standard streams.
-/

namespace ProtoSchema

open System (FilePath)

/-- What the system says about a file that could not be opened. -/
def faultOf : IO.Error → FileFault
  | .noFileOrDirectory .. => .missing
  | .inappropriateType .. => .throughFile
  | .invalidArgument .. => .nameTooLong
  | _ => .isFolder

/-- The result of an action on a path, or what went wrong with it. -/
def attempt {α : Type} (path : String) (action : FilePath → IO α) : IO (Except FileFault α) := do
  if path.toList.contains '\x00' then return .error .invalidName
  try return .ok (← action (FilePath.mk path))
  catch e => return .error (faultOf e)

/-- What the system knows a path to lead to; what is neither file nor folder counts as nothing. -/
def kindOnDisk (path : String) : IO (Except FileFault FileKind) := do
  match ← attempt path fun path => path.metadata with
  | .error fault => return .error fault
  | .ok data => match data.type with
    | .dir => return .ok .folder
    | .file => return .ok .file
    | _ => return .error .missing

/-- The disk and the standard streams. -/
instance : Host IO where
  currentFolder := do return (← IO.currentDir).toString
  kindOf path := kindOnDisk path
  namesIn path := do return ((← (FilePath.mk path).readDir).map fun entry => entry.fileName).toList
  read path := attempt path IO.FS.readBinFile
  write path contents := attempt path fun path => IO.FS.writeFile path contents
  say line := IO.println line
  warn line := IO.eprintln line

/-- What is said about a run that broke off. -/
def Failure.message : Failure → String
  | .refused _ => "The run was refused."
  | .unknownTarget => "There is no such target."
  | .blankValue => "The target or the configuration has no value."
  | .config e => e.message
  | .parse e => e.message
  | .output _ => "A number has too many digits to be written."
  | .file .missing => "No such file or folder."
  | .file .isFolder => "A folder stands where a file is needed."
  | .file .throughFile => "A path goes on after a file."
  | .file .invalidName => "No file can have this name."
  | .file .nameTooLong => "A name or a path is too long."
  | .notText => "A file is no text in UTF-8."
  | .configNumberTooLong => "A number in the configuration has too many digits."
  | .halfCharacter => "The output holds half a surrogate pair."

end ProtoSchema

/-- The program: its exit status is that of the run. -/
def main (line : List String) : IO UInt32 := do
  match ← (ProtoSchema.runLine line).run with
  | .ok status => return status.toUInt32
  | .error e => IO.eprintln e.message; return 1
