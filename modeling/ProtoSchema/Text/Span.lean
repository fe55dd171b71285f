/-!
# Text/Span — character classes as spans of code points

A property of the Unicode character table is kept as the list of the spans that have it.  `within`
asks whether a character lies in one of them.
-/

namespace ProtoSchema.Text

/-- The code points from `first` to `last`, both included. -/
structure Span where
  first : Nat
  last : Nat
deriving Repr, DecidableEq

/-- The span holds the character. -/
def Span.holds (s : Span) (c : Char) : Bool := s.first ≤ c.toNat && c.toNat ≤ s.last

/-- Some span of the list holds the character. -/
def within (spans : List Span) (c : Char) : Bool := spans.any (·.holds c)

end ProtoSchema.Text
