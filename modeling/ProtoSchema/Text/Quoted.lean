import ProtoSchema.Text.Hex
import ProtoSchema.Text.Printable

/-!
# Text/Quoted — a text in quotes, on one line

A text is shown between single quotes, or between double quotes if it holds a single quote and no
double one.  The backslash, the quote in use and the usual control characters are escaped with a
backslash; other characters that are not printable are written by their code in lower-case
hexadecimal, with as many digits as their size asks for.
-/

namespace ProtoSchema.Text

/-- The code of a character that is not printable. -/
def codeEscape (c : Char) : List Char :=
  let n := c.toNat
  if n ≤ 0xFF then '\\' :: 'x' :: hexDigits 2 n
  else if n ≤ 0xFFFF then '\\' :: 'u' :: hexDigits 4 n
  else '\\' :: 'U' :: hexDigits 8 n

/-- One character between the given quotes. -/
def quotedChar (quote c : Char) : List Char :=
  if c = quote || c = '\\' then ['\\', c]
  else if c = '\n' then ['\\', 'n']
  else if c = '\r' then ['\\', 'r']
  else if c = '\t' then ['\\', 't']
  else if isPrintable c then [c]
  else codeEscape c

/-- Single quotes, unless only double ones spare an escape. -/
def quoteFor (cs : List Char) : Char :=
  if cs.contains '\'' && !cs.contains '"' then '"' else '\''

/-- **The text in quotes.** -/
def quoted (s : String) : String :=
  let quote := quoteFor s.toList
  String.ofList (quote :: s.toList.flatMap (quotedChar quote) ++ [quote])

end ProtoSchema.Text
