import ProtoSchema.Json
import ProtoSchema.Text.Hex
import ProtoSchema.Text.Numeral

/-!
# Json/Printer — values as indented ASCII text

Items and members stand on lines of their own, two spaces further in than the brackets around them;
an empty list or object is its two brackets.  Strings hold printable ASCII characters alone: others
are escaped by their UTF-16 units.  A value with an integer of too many digits has no text.
-/

namespace ProtoSchema.Json

open Text

/-! ## Strings -/

/-- The UTF-16 units of a character. -/
def units (c : Char) : List Nat :=
  let n := c.toNat
  if n < 0x10000 then [n] else [0xD800 + (n - 0x10000) / 0x400, 0xDC00 + (n - 0x10000) % 0x400]

/-- The escape of a UTF-16 unit. -/
def unitEscape (n : Nat) : List Char := '\\' :: 'u' :: hexDigits 4 n

/-- A character between quotes. -/
def escapeChar (c : Char) : List Char :=
  if c = '"' || c = '\\' then ['\\', c]
  else if c = '\n' then ['\\', 'n']
  else if c = '\r' then ['\\', 'r']
  else if c = '\t' then ['\\', 't']
  else if c = '\x08' then ['\\', 'b']
  else if c = '\x0c' then ['\\', 'f']
  else if 0x20 ≤ c.toNat && c.toNat ≤ 0x7E then [c]
  else (units c).flatMap unitEscape

/-- A string in quotes. -/
def printText (s : String) : List Char := '"' :: s.toList.flatMap escapeChar ++ ['"']

/-! ## Values -/

/-- A new line at the given depth. -/
def newLine (depth : Nat) : List Char := '\n' :: List.replicate (2 * depth) ' '

/-- Texts on lines of their own between two brackets. -/
def bracket (opening closing : Char) (depth : Nat) : List (List Char) → List Char
  | [] => [opening, closing]
  | t :: ts =>
    opening :: newLine (depth + 1) ++ List.intercalate (',' :: newLine (depth + 1)) (t :: ts)
      ++ newLine depth ++ [closing]

mutual

/-- The text of a value inside `depth` brackets. -/
def printAt (depth : Nat) : Json → Option (List Char)
  | null => some "null".toList
  | bool b => some (if b then "true".toList else "false".toList)
  | int n => (printInt n).map String.toList
  | real literal => some literal.toList
  | text s => some (printText s)
  | halfText s => some (printText s)
  | list items => (printItems (depth + 1) items).map (bracket '[' ']' depth)
  | object members => (printMembers (depth + 1) members).map (bracket '{' '}' depth)

/-- The texts of the items of a list. -/
def printItems (depth : Nat) : List Json → Option (List (List Char))
  | [] => some []
  | j :: js => do
    let t ← printAt depth j
    let ts ← printItems depth js
    return t :: ts

/-- The texts of the members of an object. -/
def printMembers (depth : Nat) : List (String × Json) → Option (List (List Char))
  | [] => some []
  | (key, j) :: ms => do
    let t ← printAt depth j
    let ts ← printMembers depth ms
    return (printText key ++ ':' :: ' ' :: t) :: ts

end

/-- **The text of a value**, unless an integer in it has too many digits. -/
def print (j : Json) : Option String := (printAt 0 j).map String.ofList

end ProtoSchema.Json
