import ProtoSchema.Text.Blank
import ProtoSchema.Source.Comment

/-!
# Statement — the kinds of statements and their tokens

A statement is known by its first token and by whether it opens a body.  Tokens are the words of the
statement without quote characters; the tokens of a method also end at parentheses, and leave the
word `stream` out.
-/

namespace ProtoSchema

open Text

/-! ## Tokens -/

/-- A word without its quote characters. -/
def unquote (cs : List Char) : List Char := cs.filter (!Source.isQuote ·)

/-- The words that hold more than quote characters, without these. -/
def tokensOfWords (ws : List (List Char)) : List String :=
  ((ws.map unquote).filter (!·.isEmpty)).map String.ofList

/-- **The tokens of a statement.** -/
def tokens (cs : List Char) : List String := tokensOfWords (words cs)

/-- A blank or a parenthesis ends a token of a method. -/
def isRpcGap (c : Char) : Bool := isBlank c || c = '(' || c = ')'

/-- **The tokens of a method's statement**, neither `stream` nor an opening brace among them. -/
def rpcTokens (cs : List Char) : List String :=
  (tokensOfWords (cs.splitOnP isRpcGap)).filter fun t => t ≠ "stream" && t ≠ "\x7b"

/-! ## Kinds -/

/-- What a statement is about. -/
inductive StatementKind
  | version
  | package
  | importing
  | setting
  | message
  | enum
  | service
  | rpc
  | reserved
  | closing
  | comment
  | block
  | field
deriving Repr, DecidableEq, Inhabited

namespace StatementKind

/-- The kind a keyword announces. -/
def ofKeyword? : String → Option StatementKind
  | "syntax" => some version
  | "package" => some package
  | "import" => some importing
  | "option" => some setting
  | "message" => some message
  | "enum" => some enum
  | "service" => some service
  | "rpc" => some rpc
  | "reserved" => some reserved
  | "extensions" => some reserved
  | _ => none

/-- The kind of a statement with these tokens, its braces aside. -/
def ofTokens : List String → StatementKind
  | t :: _ => (ofKeyword? t).getD field
  | [] => field

/-- The kinds whose body means something. -/
def isOpener (k : StatementKind) : Bool :=
  k = message || k = enum || k = service || k = rpc

end StatementKind

/-! ## Statements -/

/-- **A classified statement.** -/
structure Statement where
  kind : StatementKind
  tokens : List String
  text : String
  opensBody : Bool
deriving Repr, DecidableEq, Inhabited

namespace Statement

/-- The text ends with an opening brace. -/
def endsOpen (cs : List Char) : Bool := cs.getLast? = some '{'

/-- The text without an opening brace at its end and the blanks before it. -/
def body (cs : List Char) : List Char := if endsOpen cs then trimEnd cs.dropLast else cs

/-- The text starts as a line comment. -/
def isComment (cs : List Char) : Bool := ['/', '/'].isPrefixOf cs

/-- **Classifies a statement.**  A comment opens no body, whatever it ends with, nor does a closing
brace; another statement that opens a body its keyword does not ask for is a block. -/
def ofText (text : String) : Statement :=
  let cs := text.toList
  let b := body cs
  if isComment b then ⟨.comment, ProtoSchema.tokens b, text, false⟩
  else if b = ['}'] then ⟨.closing, ["\x7d"], text, false⟩
  else
    let ts := ProtoSchema.tokens b
    let kind := StatementKind.ofTokens ts
    ⟨if endsOpen cs && !kind.isOpener then .block else kind, ts, text, endsOpen cs⟩

/-- A statement that is neither comment nor closing brace is known by the tokens of its body. -/
theorem ofText_of_code {text : String} (comment : isComment (body text.toList) = false)
    (closing : body text.toList ≠ ['}']) :
    ofText text
      = ⟨if endsOpen text.toList
            && !(StatementKind.ofTokens (ProtoSchema.tokens (body text.toList))).isOpener
          then .block else StatementKind.ofTokens (ProtoSchema.tokens (body text.toList)),
        ProtoSchema.tokens (body text.toList), text, endsOpen text.toList⟩ := by
  simp [ofText, comment, closing]

end Statement

end ProtoSchema
