import ProtoSchema.Source.Lexeme

/-!
# Source/Statements — a schema text as a list of statements

A statement is one line of text in normal form: single spaces, none at the ends, an equals sign
apart from what surrounds it, and `returns` apart from its parentheses.  An opening brace ends the
statement it belongs to and is kept at its end, a closing brace is a statement of its own, and a
semicolon ends a statement without being kept.  Line comments are statements that start with `//`;
a statement that is interrupted by one goes on after it.
-/

namespace ProtoSchema.Source

open Text

/-! ## The normal form -/

/-- Puts a space at either side of every equals sign. -/
def spaceEquals (cs : List Char) : List Char :=
  cs.flatMap fun c => if c = '=' then [' ', '=', ' '] else [c]

/-- The rule that puts one space at either side of `returns` between parentheses. -/
def returnsBetween : Rule
  | ')' :: cs =>
    let before := (cs.takeWhile isBlank).length
    match "returns".toList.isPrefixOf? (cs.drop before) with
    | some rest =>
      let after := (rest.takeWhile isBlank).length
      match rest.drop after with
      | '(' :: _ => some (") returns (".toList, before + 7 + after + 1)
      | _ => none
    | none => none
  | _ => none

/-- **The normal form of a statement's text.** -/
def normalize (cs : List Char) : List Char :=
  collapse (replaceAll returnsBetween (spaceEquals cs))

/-- The statement a text makes: none if there is nothing but blanks. -/
def emit (cs : List Char) : List (List Char) :=
  if (normalize cs).isEmpty then [] else [normalize cs]

/-! ## Grouping lexemes -/

/-- **The statements of a list of lexemes**, the text `pending` before them. -/
def group (pending : List Char) : List Lexeme → List (List Char)
  | [] => emit pending
  | .text cs :: ls => group (pending ++ ' ' :: cs) ls
  | .opening :: ls => emit (pending ++ [' ', '{']) ++ group [] ls
  | .closing :: ls => emit pending ++ emit ['}'] ++ group [] ls
  | .stop :: ls => emit pending ++ group [] ls
  | .comment cs :: ls => emit ('/' :: '/' :: ' ' :: cs) ++ group pending ls

/-! ## The whole text -/

/-- A gap inside a line. -/
def isGap (c : Char) : Bool := c = ' ' || c = '\t'

/-- The rule that makes an empty body after a closing parenthesis the end of a statement.  The brace
has to open on the line of the parenthesis. -/
def emptyBody : Rule
  | ')' :: cs =>
    let before := (cs.takeWhile isGap).length
    match cs.drop before with
    | '{' :: rest =>
      let inner := (rest.takeWhile isBlank).length
      match rest.drop inner with
      | '}' :: _ => some ([')', ';'], before + inner + 2)
      | _ => none
    | _ => none
  | _ => none

/-- The text with block comments, the leading comment and empty bodies out of the way. -/
def tidy (cs : List Char) : List Char :=
  replaceAll emptyBody (dropLeadingComment (trimStart (eraseBlockComments cs)))

/-- The statements of a text, as characters. -/
def statementChars (cs : List Char) : List (List Char) := group [] (Lexeme.ofText (tidy cs))

/-- **The statements of a schema text**, in source order. -/
def statements (text : String) : List String := (statementChars text.toList).map String.ofList

end ProtoSchema.Source
