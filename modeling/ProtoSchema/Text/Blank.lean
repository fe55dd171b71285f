/-!
# Text/Blank — blanks, line breaks and words

`isBlank` is the white space of every script; the words of a text are its maximal stretches without
blanks, and `collapse` puts them side by side with one space between.  A text that is already in
that form is left alone by `collapse`.
-/

namespace ProtoSchema.Text

/-! ## The two classes -/

/-- **A blank**: white space of any script, the control separators U+001C to U+001F included. -/
def isBlank (c : Char) : Bool :=
  let n := c.toNat
  (0x09 ≤ n && n ≤ 0x0D) || (0x1C ≤ n && n ≤ 0x20) || n = 0x85 || n = 0xA0 || n = 0x1680
    || (0x2000 ≤ n && n ≤ 0x200A) || n = 0x2028 || n = 0x2029 || n = 0x202F || n = 0x205F
    || n = 0x3000

/-- **A line break.**  A carriage return before a line feed ends a line of its own; what follows it
is then an empty line. -/
def isLineBreak (c : Char) : Bool :=
  let n := c.toNat
  (0x0A ≤ n && n ≤ 0x0D) || (0x1C ≤ n && n ≤ 0x1E) || n = 0x85 || n = 0x2028 || n = 0x2029

theorem isBlank_space : isBlank ' ' = true := by decide

theorem isBlank_of_isLineBreak {c : Char} (h : isLineBreak c = true) : isBlank c = true := by
  simp only [isLineBreak, isBlank, Bool.or_eq_true, Bool.and_eq_true, decide_eq_true_eq] at h ⊢
  omega

/-! ## Trimming -/

/-- The text without its leading blanks. -/
def trimStart (cs : List Char) : List Char := cs.dropWhile isBlank

/-- The text without its trailing blanks. -/
def trimEnd (cs : List Char) : List Char := (cs.reverse.dropWhile isBlank).reverse

/-! ## Lines and words -/

/-- The lines of a text, without their breaks. -/
def lines (cs : List Char) : List (List Char) := cs.splitOnP isLineBreak

/-- **The words of a text**: what stands between blanks, empty stretches left out. -/
def words (cs : List Char) : List (List Char) := (cs.splitOnP isBlank).filter (!·.isEmpty)

/-- Words with one space between neighbours. -/
def unwords (ws : List (List Char)) : List Char := List.intercalate [' '] ws

/-- The text with single spaces between its words and none at the ends. -/
def collapse (cs : List Char) : List Char := unwords (words cs)

/-! ## Reading files -/

/-- The text of a file with every line break of its own, carriage return or carriage return and line
feed, made a line feed. -/
def unifyBreaks : List Char → List Char
  | '\r' :: '\n' :: cs => '\n' :: unifyBreaks cs
  | '\r' :: cs => '\n' :: unifyBreaks cs
  | c :: cs => c :: unifyBreaks cs
  | [] => []

end ProtoSchema.Text
