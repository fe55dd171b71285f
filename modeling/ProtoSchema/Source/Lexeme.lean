import ProtoSchema.Text.Blank
import ProtoSchema.Source.Comment

/-!
# Source/Lexeme — a schema text as text pieces, delimiters and line comments

The delimiters are the two braces and the semicolon, in quotes as well as outside.  The code of each
line is cut at them, and its comment follows the code.
-/

namespace ProtoSchema.Source

open Text

/-- What the statements of a schema are grouped from. -/
inductive Lexeme
  | text (chars : List Char)
  | opening
  | closing
  | stop
  | comment (chars : List Char)
deriving Repr, DecidableEq

namespace Lexeme

/-- The lexeme a character is by itself. -/
def ofDelimiter? (c : Char) : Option Lexeme :=
  if c = '{' then some opening
  else if c = '}' then some closing
  else if c = ';' then some stop
  else none

/-- Puts a character in front of the first text piece. -/
def consChar (c : Char) : List Lexeme → List Lexeme
  | text cs :: ls => text (c :: cs) :: ls
  | ls => text [c] :: ls

/-- **Code cut at its delimiters**, with a text piece before, between and after them. -/
def ofCode : List Char → List Lexeme
  | [] => [text []]
  | c :: cs => match ofDelimiter? c with
    | some d => text [] :: d :: ofCode cs
    | none => consChar c (ofCode cs)

/-- The lexemes of one line. -/
def ofLine (cs : List Char) : List Lexeme :=
  let cut := cutComment cs
  ofCode cut.code ++ cut.comment.toList.map comment

/-- The lexemes of a text, line by line. -/
def ofText (cs : List Char) : List Lexeme := (lines cs).flatMap ofLine

end Lexeme

end ProtoSchema.Source
