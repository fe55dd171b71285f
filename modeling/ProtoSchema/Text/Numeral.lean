import ProtoSchema.Text.Blank
import ProtoSchema.Text.Digit

/-!
# Text/Numeral — integers as they are written in a schema

An integer is read in two ways, tried in turn.  A *marked* numeral names its base by `0x`, `0o` or
`0b`; without a mark it is decimal, and then it starts with a zero only if it is zero.  A *decimal*
numeral may start with zeros.  Both allow a sign, single underscores between digits, blanks around
the whole, and the decimal digits of every script.  Decimal numerals have at most `digitLimit`
digits, in reading as in printing; the marked bases have no limit.
-/

namespace ProtoSchema.Text

/-- The most digits a decimal numeral may have. -/
def digitLimit : Nat := 4300

/-! ## Digits -/

/-- The value of a digit or Latin letter, up to base 36. -/
def digitValue (c : Char) : Option Nat :=
  if c.isDigit then some (c.toNat - 48)
  else if 'a' ≤ c && c ≤ 'z' then some (c.toNat - 87)
  else if 'A' ≤ c && c ≤ 'Z' then some (c.toNat - 55)
  else none

/-- The value of a digit of the base. -/
def digitIn (base : Nat) (c : Char) : Option Nat := (digitValue c).filter (· < base)

/-- **The digits of a numeral**: at least one, with single underscores only between digits. -/
def digits (base : Nat) (cs : List Char) : Option (List Nat) :=
  let groups := cs.splitOn '_'
  if groups.any List.isEmpty then none else groups.flatten.mapM (digitIn base)

/-- The number that digits stand for, the highest first. -/
def ofDigits (base : Nat) (ds : List Nat) : Nat := ds.foldl (fun n d => n * base + d) 0

/-- Decimal digits within the limit. -/
def decimalDigits (cs : List Char) : Option (List Nat) :=
  (digits 10 cs).filter (·.length ≤ digitLimit)

/-! ## The two readings -/

/-- The base that the letter after a zero names. -/
def markedBase (c : Char) : Option Nat :=
  if c = 'x' || c = 'X' then some 16
  else if c = 'o' || c = 'O' then some 8
  else if c = 'b' || c = 'B' then some 2
  else none

/-- One underscore may stand between the mark and the digits. -/
def dropUnderscore : List Char → List Char
  | '_' :: cs => cs
  | cs => cs

/-- An unsigned decimal numeral without a mark: zeros in front only if there is nothing else. -/
def plainNat (cs : List Char) : Option Nat :=
  ((decimalDigits cs).map (ofDigits 10)).filter fun n => cs.head? ≠ some '0' || n = 0

/-- An unsigned numeral that may name its base. -/
def markedNat : List Char → Option Nat
  | '0' :: c :: cs => match markedBase c with
    | some base => (digits base (dropUnderscore cs)).map (ofDigits base)
    | none => plainNat ('0' :: c :: cs)
  | cs => plainNat cs

/-- An unsigned decimal numeral, zeros in front allowed. -/
def decimalNat (cs : List Char) : Option Nat := (decimalDigits cs).map (ofDigits 10)

/-- Reads an optional sign before an unsigned numeral. -/
def signed (magnitude : List Char → Option Nat) : List Char → Option Int
  | '-' :: cs => (magnitude cs).map fun n => -(n : Int)
  | '+' :: cs => (magnitude cs).map Int.ofNat
  | cs => (magnitude cs).map Int.ofNat

/-- A blank that may stand around a numeral: the control separators are not among them. -/
def isPadding (c : Char) : Bool := isBlank c && !(0x1C ≤ c.toNat && c.toNat ≤ 0x1F)

/-- The numeral without the blanks around it, in ASCII digits. -/
def bare (cs : List Char) : List Char :=
  ((cs.dropWhile isPadding).reverse.dropWhile isPadding).reverse.map toAsciiDigit

/-- The reading that lets a numeral name its base. -/
def readMarked (cs : List Char) : Option Int := signed markedNat (bare cs)

/-- The reading in base ten. -/
def readDecimal (cs : List Char) : Option Int := signed decimalNat (bare cs)

/-- **The integer a text stands for**, if it is one. -/
def readInt (s : String) : Option Int := readMarked s.toList <|> readDecimal s.toList

/-! ## Printing -/

/-- The least number with more digits than a decimal numeral may have. -/
def numeralBound : Nat := Nat.pow 10 digitLimit

/-- **The decimal text of an integer**, unless it has too many digits. -/
def printInt (n : Int) : Option String :=
  if n.natAbs < numeralBound then some (toString n) else none

end ProtoSchema.Text
