import ProtoSchema.Text.Replace

/-!
# Source/Comment — finding the comments of a schema text

Block comments are erased wherever they stand, quotes or not; one that is never closed is no
comment.  A line comment starts at the first `//` of its line outside quotes: `cutComment` separates
the code from it, and `cutComment_line` says that the two parts with the mark between them are the
line.
-/

namespace ProtoSchema.Source

open Text

/-! ## Block comments -/

/-- The number of characters up to and including the first `*/`. -/
def lengthToClose : List Char → Option Nat
  | [] => none
  | '*' :: '/' :: _ => some 2
  | _ :: cs => (lengthToClose cs).map (· + 1)

/-- The rule that erases a closed block comment.  The star that opens it does not close it. -/
def blockComment : Rule
  | '/' :: '*' :: cs => (lengthToClose cs).map fun n => ([], n + 1)
  | _ => none

/-- The text without its block comments. -/
def eraseBlockComments (cs : List Char) : List Char := replaceAll blockComment cs

/-! ## The comment that leads the text -/

/-- Drops a line comment that the text starts with, up to its line feed. -/
def dropLeadingComment : List Char → List Char
  | '/' :: '/' :: cs => cs.dropWhile (· ≠ '\n')
  | cs => cs

/-! ## Line comments -/

/-- Where a character of a line stands: outside quotes, inside a quoted string, or right after a
backslash in one. -/
inductive Quoting
  | outside
  | inside (quote : Char)
  | escaped (quote : Char)
deriving Repr, DecidableEq

/-- Both quote characters open a string, and each closes its own. -/
def isQuote (c : Char) : Bool := c = '"' || c = '\''

/-- Where the character after `c` stands. -/
def Quoting.next : Quoting → Char → Quoting
  | .outside, c => if isQuote c then .inside c else .outside
  | .inside q, c => if c = '\\' then .escaped q else if c = q then .outside else .inside q
  | .escaped q, _ => .inside q

/-- A line cut at its comment. -/
structure CutLine where
  code : List Char
  comment : Option (List Char)
deriving Repr, DecidableEq

/-- Puts a character in front of the code. -/
def CutLine.cons (c : Char) (l : CutLine) : CutLine := ⟨c :: l.code, l.comment⟩

/-- The line that was cut: the mark stands between code and comment. -/
def CutLine.line (l : CutLine) : List Char :=
  l.code ++ match l.comment with
    | some cs => '/' :: '/' :: cs
    | none => []

/-- Cuts the rest of a line whose next character stands at `q`. -/
def cutFrom : Quoting → List Char → CutLine
  | _, [] => ⟨[], none⟩
  | q, c :: cs =>
    match q, c, cs with
    | .outside, '/', '/' :: rest => ⟨[], some rest⟩
    | _, _, _ => (cutFrom (q.next c) cs).cons c

/-- **Cuts a line at the first `//` outside quotes.** -/
def cutComment (cs : List Char) : CutLine := cutFrom .outside cs

theorem CutLine.line_cons (c : Char) (l : CutLine) : (l.cons c).line = c :: l.line := rfl

theorem cutFrom_line : ∀ (q : Quoting) (cs : List Char), (cutFrom q cs).line = cs
  | _, [] => rfl
  | q, c :: cs => by
      unfold cutFrom
      split
      · rfl
      · rw [CutLine.line_cons, cutFrom_line]

/-- The parts of a cut line, with the mark between them, are the line. -/
theorem cutComment_line (cs : List Char) : (cutComment cs).line = cs := cutFrom_line _ _

end ProtoSchema.Source
