/-!
# FilePath — the text of paths

A path is a text of parts with slashes between them.  In its normal form a path has no empty parts
and no parts that stay where they are, and a path without parts is a point; parts that go up are
kept, for what they lead to is not known from the text.
-/

namespace ProtoSchema.FilePath

/-- The parts of a path, empty ones included. -/
def parts (path : String) : List String := (path.toList.splitOn '/').map String.ofList

/-- The path starts at the root. -/
def isAbsolute (path : String) : Bool := path.toList.head? = some '/'

/-- The part stays in the folder it is looked up in. -/
def stays (part : String) : Bool := part = "" || part = "."

/-- The most bytes that a part may have. -/
def partLimit : Nat := 255

/-- The most bytes that a path may have. -/
def lengthLimit : Nat := 4095

/-- The slashes a path in normal form starts with: exactly two are kept, more become one. -/
def root (path : String) : String :=
  match (path.toList.takeWhile (· = '/')).length with
  | 0 => ""
  | 2 => "//"
  | _ => "/"

/-- **The normal form of a path.** -/
def normal (path : String) : String :=
  let text := root path ++ "/".intercalate ((parts path).filter (!stays ·))
  if text = "" then "." else text

/-- **A path looked up in a folder**: an absolute path is kept as it is. -/
def join (folder path : String) : String :=
  if isAbsolute path then path
  else if folder = "" || folder.toList.getLast? = some '/' then folder ++ path
  else folder ++ "/" ++ path

/-- The last part of the normal form. -/
def name (path : String) : String := (((parts path).filter (!stays ·)).getLast?).getD ""

/-- The name up to its first dot. -/
def stem (path : String) : String := String.ofList ((name path).toList.takeWhile (· ≠ '.'))

/-- **The suffix of a name**: its last dot and what follows, if there is something before the dot
and after it. -/
def suffix (path : String) : String :=
  let cs := (name path).toList
  let after := (cs.reverse.takeWhile (· ≠ '.')).reverse
  let before := cs.take (cs.length - after.length - 1)
  if after.isEmpty || before.isEmpty then "" else String.ofList ('.' :: after)

end ProtoSchema.FilePath
