import ProtoSchema.Json
import ProtoSchema.Text.Hex
import ProtoSchema.Text.Numeral

/-!
# Json/Reader — values from text

The text holds one value with white space around it.  Besides the standard, `NaN` and the infinities
are numbers.  A key may come again; all its members are kept.  An escape of half a surrogate pair is
no character; in a key the replacement character stands for it.  The reader stops at the first
fault: the text is no value, or an integer has too many digits.
-/

namespace ProtoSchema.Json

open Text

/-- Why a text has no value. -/
inductive Fault
  | malformed
  | integerTooLong
deriving Repr, DecidableEq, Inhabited

/-! A part is read from the front of a text, and what follows it is given back with it. -/

/-! ## White space -/

/-- The white space between the parts of a value. -/
def isSpace (c : Char) : Bool := c = ' ' || c = '\t' || c = '\r' || c = '\n'

/-- The text after its leading white space. -/
def skipSpace (cs : List Char) : List Char := cs.dropWhile isSpace

/-! ## Strings -/

/-- The number that four hexadecimal digits at the front make, and the rest. -/
def hexUnit? : List Char → Option (Nat × List Char)
  | a :: b :: c :: d :: cs => do
    let a ← hexValue? a
    let b ← hexValue? b
    let c ← hexValue? c
    let d ← hexValue? d
    return (((a * 16 + b) * 16 + c) * 16 + d, cs)
  | _ => none

/-- The low half of a surrogate pair at the front, and the rest. -/
def lowUnit? : List Char → Option (Nat × List Char)
  | '\\' :: 'u' :: cs => (hexUnit? cs).filter fun (n, _) => 0xDC00 ≤ n && n < 0xE000
  | _ => none

/-- What a string is made of, and its end. -/
inductive Piece
  | char (c : Char)
  /-- Half a surrogate pair. -/
  | half
  | closing
deriving Repr, DecidableEq, Inhabited

/-- The character of an escaped unit, with the other half of its pair if it needs one. -/
def unitPiece? (cs : List Char) : Option (Piece × List Char) :=
  (hexUnit? cs).map fun (n, rest) =>
    if 0xD800 ≤ n && n < 0xDC00 then
      match lowUnit? rest with
      | some (low, rest) =>
        (.char (Char.ofNat (0x10000 + (n - 0xD800) * 0x400 + (low - 0xDC00))), rest)
      | none => (.half, rest)
    else if 0xDC00 ≤ n && n < 0xE000 then (.half, rest)
    else (.char (Char.ofNat n), rest)

/-- The character of a one-letter escape. -/
def letterEscape? (c : Char) : Option Char :=
  if c = '"' || c = '\\' || c = '/' then some c
  else if c = 'b' then some '\x08'
  else if c = 'f' then some '\x0c'
  else if c = 'n' then some '\n'
  else if c = 'r' then some '\r'
  else if c = 't' then some '\t'
  else none

/-- The first piece of a string's rest. -/
def readPiece : List Char → Except Fault (Piece × List Char)
  | [] => .error .malformed
  | '"' :: cs => .ok (.closing, cs)
  | '\\' :: 'u' :: cs => match unitPiece? cs with
    | some found => .ok found
    | none => .error .malformed
  | '\\' :: c :: cs => match letterEscape? c with
    | some e => .ok (.char e, cs)
    | none => .error .malformed
  | c :: cs => if c.toNat < 0x20 || c = '\\' then .error .malformed else .ok (.char c, cs)

/-- The characters of a string's rest after its opening quote, none in the place of each half of a
pair.  No more than `fuel` pieces are read. -/
def readText : (fuel : Nat) → List Char → Except Fault (List (Option Char) × List Char)
  | 0, _ => .error .malformed
  | fuel + 1, cs => do
    match ← readPiece cs with
    | (.closing, rest) => return ([], rest)
    | (.char c, rest) =>
      let (tail, rest) ← readText fuel rest
      return (some c :: tail, rest)
    | (.half, rest) =>
      let (tail, rest) ← readText fuel rest
      return (none :: tail, rest)

/-- The string of characters, the replacement character where one is missing. -/
def shown (cs : List (Option Char)) : String := String.ofList (cs.map (·.getD '\uFFFD'))

/-- The value of a string. -/
def ofChars (cs : List (Option Char)) : Json :=
  if cs.all Option.isSome then text (shown cs) else halfText (shown cs)

/-! ## Numbers -/

/-- The digits at the front of a text. -/
def leadingDigits (cs : List Char) : List Char := cs.takeWhile Char.isDigit

/-- The fraction at the front of a text: a point and at least one digit, or nothing. -/
def fraction : List Char → List Char
  | '.' :: cs => if (leadingDigits cs).isEmpty then [] else '.' :: leadingDigits cs
  | _ => []

/-- A sign of an exponent at the front of a text. -/
def exponentSign : List Char → List Char
  | '+' :: _ => ['+']
  | '-' :: _ => ['-']
  | _ => []

/-- The exponent at the front of a text: its letter, an optional sign and at least one digit, or
nothing. -/
def exponent : List Char → List Char
  | c :: cs =>
    if c = 'e' || c = 'E' then
      let sign := exponentSign cs
      let ds := leadingDigits (cs.drop sign.length)
      if ds.isEmpty then [] else c :: sign ++ ds
    else []
  | [] => []

/-- The digits before the point: a zero stands alone. -/
def wholeDigits (cs : List Char) : List Char :=
  match leadingDigits cs with
  | '0' :: _ => ['0']
  | ds => ds

/-- The integer of a sign and decimal digits. -/
def integer (negative : Bool) (ds : List Char) : Except Fault Json :=
  match decimalNat ds with
  | some n => .ok (int (if negative then -(n : Int) else n))
  | none => .error .integerTooLong

/-- A number whose sign, if it has one, was read. -/
def readNumber (negative : Bool) (cs : List Char) : Except Fault (Json × List Char) :=
  let whole := wholeDigits cs
  let afterWhole := cs.drop whole.length
  let part := fraction afterWhole
  let afterPart := afterWhole.drop part.length
  let power := exponent afterPart
  if whole.isEmpty then .error .malformed
  else if part.isEmpty && power.isEmpty then
    (integer negative whole).map (·, afterWhole)
  else
    let sign := if negative then ['-'] else []
    .ok (real (String.ofList (sign ++ whole ++ part ++ power)), afterPart.drop power.length)

/-! ## Values -/

/-- The values that are words. -/
def literals : List (String × Json) :=
  [("null", null), ("true", bool true), ("false", bool false), ("NaN", real "NaN"),
    ("Infinity", real "Infinity"), ("-Infinity", real "-Infinity")]

/-- The value of a word at the front of a text, and the rest. -/
def literal? (cs : List Char) : Option (Json × List Char) :=
  literals.findSome? fun (word, value) => (word.toList.isPrefixOf? cs).map (value, ·)

mutual

/-- A value at the front of a text.  No more than `fuel` parts are read. -/
def readValue : (fuel : Nat) → List Char → Except Fault (Json × List Char)
  | 0, _ => .error .malformed
  | fuel + 1, cs => match literal? cs with
    | some found => .ok found
    | none => match cs with
      | '"' :: cs => do
        let (s, rest) ← readText cs.length cs
        return (ofChars s, rest)
      | '[' :: cs => match skipSpace cs with
        | ']' :: rest => .ok (list [], rest)
        | cs => do
          let (items, rest) ← readItems fuel cs
          return (list items, rest)
      | '{' :: cs => match skipSpace cs with
        | '}' :: rest => .ok (object [], rest)
        | cs => do
          let (members, rest) ← readMembers fuel cs
          return (object members, rest)
      | '-' :: cs => readNumber true cs
      | cs => readNumber false cs

/-- The items of a list, up to its closing bracket. -/
def readItems : (fuel : Nat) → List Char → Except Fault (List Json × List Char)
  | 0, _ => .error .malformed
  | fuel + 1, cs => do
    let (item, rest) ← readValue fuel cs
    match skipSpace rest with
    | ']' :: rest => return ([item], rest)
    | ',' :: rest =>
      let (items, rest) ← readItems fuel (skipSpace rest)
      return (item :: items, rest)
    | _ => .error .malformed

/-- The members of an object, up to its closing brace. -/
def readMembers : (fuel : Nat) → List Char → Except Fault (List (String × Json) × List Char)
  | 0, _ => .error .malformed
  | fuel + 1, cs => match cs with
    | '"' :: cs => do
      let (key, rest) ← readText cs.length cs
      match skipSpace rest with
      | ':' :: rest =>
        let (value, rest) ← readValue fuel (skipSpace rest)
        match skipSpace rest with
        | '}' :: rest => return ([(shown key, value)], rest)
        | ',' :: rest =>
          let (members, rest) ← readMembers fuel (skipSpace rest)
          return ((shown key, value) :: members, rest)
        | _ => .error .malformed
      | _ => .error .malformed
    | _ => .error .malformed

end

/-- **The value of a text.** -/
def parse (s : String) : Except Fault Json := do
  let cs := skipSpace s.toList
  let (value, rest) ← readValue (2 * cs.length + 1) cs
  if (skipSpace rest).isEmpty then return value else .error .malformed

end ProtoSchema.Json
