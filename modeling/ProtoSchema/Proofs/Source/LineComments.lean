import Mathlib.Data.List.Induction
import ProtoSchema.Proofs.Source.Lexemes

/-!
# Proofs/Source/LineComments — a line is cut at the first mark outside its strings

Strings are described without the scanner: what may stand in one (`IsStringText`), a text whose
strings are all closed (`StringsClosed`), and a piece of a line that lies in one (`LiesInString`).
The quoting behind a text says which of these it is (`Quoting.stands_foldl`), so a line is cut just
if a mark in it lies in no string, and then at the first such mark (`cutComment_first_mark`).
-/

namespace ProtoSchema.Source

variable {q c : Char} {s cs ds : List Char} {k : Quoting}

/-! ## Strings -/

/-- **What may stand in a string** behind its quote `q`: characters other than the quote and the
backslash, and backslashes, each with the character that it escapes. -/
inductive IsStringText (q : Char) : List Char → Prop
  | nil : IsStringText q []
  | plain {c : Char} {cs : List Char} (quote : c ≠ q) (backslash : c ≠ '\\')
      (rest : IsStringText q cs) : IsStringText q (c :: cs)
  | escape (c : Char) {cs : List Char} (rest : IsStringText q cs) :
      IsStringText q ('\\' :: c :: cs)

/-- **A text whose strings are closed.**  Either quote character opens a string, and the same one
closes it. -/
inductive StringsClosed : List Char → Prop
  | nil : StringsClosed []
  | plain {c : Char} {cs : List Char} (code : isQuote c = false) (rest : StringsClosed cs) :
      StringsClosed (c :: cs)
  | string {q : Char} {s cs : List Char} (quote : isQuote q = true) (inner : IsStringText q s)
      (rest : StringsClosed cs) : StringsClosed (q :: (s ++ q :: cs))

/-- **A piece that lies in a string**: the text in front of it leaves a string open, and the piece
goes on in that string.  A string that is never closed goes on to the end of the line. -/
def LiesInString (front piece : List Char) : Prop :=
  ∃ before q s, front = before ++ q :: s ∧ StringsClosed before ∧ isQuote q = true
    ∧ IsStringText q (s ++ piece)

theorem IsStringText.append (hs : IsStringText q cs) (ht : IsStringText q ds) :
    IsStringText q (cs ++ ds) := by
  induction hs with
  | nil => exact ht
  | plain quote backslash _ ih => exact .plain quote backslash ih
  | escape c _ ih => exact .escape c ih

theorem StringsClosed.append (hs : StringsClosed cs) (ht : StringsClosed ds) :
    StringsClosed (cs ++ ds) := by
  induction hs with
  | nil => exact ht
  | plain code _ ih => exact .plain code ih
  | string quote inner _ ih =>
    rw [List.cons_append, List.append_assoc]
    exact .string quote inner ih

/-! ## The quoting behind a text -/

/-- The text of a string leaves it open. -/
theorem IsStringText.foldl_next (h : IsStringText q s) :
    s.foldl Quoting.next (.inside q) = .inside q := by
  induction h with
  | nil => rfl
  | plain quote backslash _ ih =>
    rwa [List.foldl_cons, Quoting.next, if_neg backslash, if_neg quote]
  | escape c _ ih => exact ih

theorem Quoting.next_quote (h : isQuote q = true) : Quoting.outside.next q = .inside q := if_pos h

/-- Closed strings leave the quoting outside. -/
theorem StringsClosed.foldl_next (h : StringsClosed cs) :
    cs.foldl Quoting.next .outside = .outside := by
  induction h with
  | nil => rfl
  | plain code _ ih => rwa [List.foldl_cons, Quoting.next, if_neg (Bool.eq_false_iff.1 code)]
  | @string q s cs quote inner _ ih =>
    have apart : q ≠ '\\' := by
      rintro rfl
      exact absurd quote (by decide)
    have closed : (Quoting.inside q).next q = .outside := by
      rw [Quoting.next, if_neg apart, if_pos rfl]
    rw [List.foldl_cons, Quoting.next_quote quote, List.foldl_append, inner.foldl_next,
      List.foldl_cons, closed, ih]

/-- **What the quoting says of the text behind which it stands.** -/
def Quoting.Stands (cs : List Char) : Quoting → Prop
  | .outside => StringsClosed cs
  | .inside q => ∃ before s, cs = before ++ q :: s ∧ StringsClosed before ∧ isQuote q = true
      ∧ IsStringText q s
  | .escaped q => ∃ before s, cs = before ++ q :: (s ++ ['\\']) ∧ StringsClosed before
      ∧ isQuote q = true ∧ IsStringText q s

/-- One more character. -/
theorem Quoting.Stands.next (h : k.Stands cs) (c : Char) : (k.next c).Stands (cs ++ [c]) := by
  cases k with
  | outside =>
    by_cases quote : isQuote c = true
    · rw [next_quote quote]
      exact ⟨cs, [], rfl, h, quote, .nil⟩
    · rw [Quoting.next, if_neg quote]
      exact StringsClosed.append h (.plain (by simpa using quote) .nil)
  | inside q =>
    obtain ⟨before, s, rfl, closed, quote, text⟩ := h
    rw [List.append_assoc, List.cons_append, Quoting.next]
    split_ifs with backslash same
    · exact ⟨before, s, by rw [backslash], closed, quote, text⟩
    · subst same
      exact closed.append (.string quote text .nil)
    · exact ⟨before, s ++ [c], rfl, closed, quote, text.append (.plain same backslash .nil)⟩
  | escaped q =>
    obtain ⟨before, s, rfl, closed, quote, text⟩ := h
    exact ⟨before, s ++ ['\\', c], by simp, closed, quote, text.append (.escape c .nil)⟩

/-- **The quoting behind any text.** -/
theorem Quoting.stands_foldl (cs : List Char) : (cs.foldl Quoting.next .outside).Stands cs := by
  induction cs using List.reverseRecOn with
  | nil => exact StringsClosed.nil
  | append_singleton cs c ih =>
    rw [List.foldl_append]
    exact ih.next c

/-- **A mark lies in a string just if the quoting in front of it is not outside.** -/
theorem liesInString_mark_iff :
    LiesInString cs ['/', '/'] ↔ cs.foldl Quoting.next .outside ≠ .outside := by
  constructor
  · rintro ⟨before, q, s, rfl, closed, quote, text⟩ outside
    -- Outside a string, the two slashes would leave the quoting there.
    have inside := text.foldl_next
    rw [List.foldl_append, closed.foldl_next, List.foldl_cons, Quoting.next_quote quote] at outside
    rw [List.foldl_append, outside] at inside
    exact nomatch inside
  · intro ne
    have slash : ∀ {q}, isQuote q = true → '/' ≠ q := by
      rintro _ quote rfl
      exact absurd quote (by decide)
    have stands := Quoting.stands_foldl cs
    cases behind : cs.foldl Quoting.next .outside with
    | outside => exact absurd behind ne
    | inside q =>
      rw [behind] at stands
      obtain ⟨before, s, rfl, closed, quote, text⟩ := stands
      have slashes : IsStringText q ['/', '/'] :=
        .plain (slash quote) (by decide) (.plain (slash quote) (by decide) .nil)
      exact ⟨before, q, s, rfl, closed, quote, text.append slashes⟩
    | escaped q =>
      rw [behind] at stands
      obtain ⟨before, s, rfl, closed, quote, text⟩ := stands
      have slashes : IsStringText q ['\\', '/', '/'] :=
        .escape '/' (.plain (slash quote) (by decide) .nil)
      refine ⟨before, q, s ++ ['\\'], rfl, closed, quote, ?_⟩
      rw [List.append_assoc]
      exact text.append slashes

/-! ## Cutting -/

/-- **A character of a line starts its comment, or is code.** -/
theorem cutFrom_cases (k : Quoting) (c : Char) (cs : List Char) :
    (k = .outside ∧ c = '/' ∧ ∃ rest, cs = '/' :: rest ∧ cutFrom k (c :: cs) = ⟨[], some rest⟩)
      ∨ (k = .outside → c = '/' → cs.head? ≠ some '/')
        ∧ cutFrom k (c :: cs) = (cutFrom (k.next c) cs).cons c := by
  by_cases mark : k = .outside ∧ c = '/' ∧ cs.head? = some '/'
  · obtain ⟨rfl, rfl, slash⟩ := mark
    obtain ⟨rest, rfl⟩ := List.head?_eq_some_iff.1 slash
    exact .inl ⟨rfl, rfl, rest, rfl, rfl⟩
  · have apart : k = .outside → c = '/' → cs.head? ≠ some '/' := fun outside first slash =>
      mark ⟨outside, first, slash⟩
    exact .inr ⟨apart, cutFrom_cons apart⟩

/-- **A line has no comment just if the quoting in front of each mark is not outside.** -/
theorem comment_cutFrom_eq_none_iff : ∀ (k : Quoting) (cs : List Char),
    (cutFrom k cs).comment = none
      ↔ ∀ a b, cs = a ++ '/' :: '/' :: b → a.foldl Quoting.next k ≠ .outside
  | _, [] => iff_of_true rfl fun _ _ split => absurd split (by simp)
  | k, c :: cs => by
      rcases cutFrom_cases k c cs with ⟨rfl, rfl, rest, rfl, cut⟩ | ⟨apart, cut⟩
      · rw [cut]
        exact iff_of_false nofun fun quoted => quoted [] rest rfl rfl
      · rw [cut]
        refine (comment_cutFrom_eq_none_iff (k.next c) cs).trans ⟨?_, ?_⟩
        · intro quoted a b split
          cases a with
          | nil =>
            obtain ⟨rfl, rfl⟩ := List.cons.inj split
            exact fun outside => apart outside rfl rfl
          | cons d a =>
            obtain ⟨rfl, others⟩ := List.cons.inj split
            exact quoted a b others
        · exact fun quoted a b split => quoted (c :: a) b (congrArg (c :: ·) split)

/-- The line of a comment: code, mark and comment. -/
theorem eq_of_comment {t : List Char} (h : (cutFrom k cs).comment = some t) :
    (cutFrom k cs).code ++ '/' :: '/' :: t = cs := by
  have whole := cutFrom_line k cs
  rwa [CutLine.line, h] at whole

/-- **The code of a line holds no comment.** -/
theorem cutFrom_code : ∀ (k : Quoting) (cs : List Char),
    cutFrom k (cutFrom k cs).code = ⟨(cutFrom k cs).code, none⟩
  | _, [] => rfl
  | k, c :: cs => by
      rcases cutFrom_cases k c cs with ⟨-, -, rest, -, cut⟩ | ⟨apart, cut⟩
      · rw [cut]
        rfl
      · have front : (cutFrom (k.next c) cs).code <+: cs := ⟨_, cutFrom_line _ cs⟩
        rw [cut]
        change cutFrom k (c :: (cutFrom (k.next c) cs).code) = _
        rw [cutFrom_cons, cutFrom_code (k.next c) cs]
        · rfl
        · intro outside first slash
          have start := (List.singleton_prefix_iff_head?_eq_some.2 slash).trans front
          exact apart outside first (List.singleton_prefix_iff_head?_eq_some.1 start)

/-- **What stands behind the mark has no say in where a line is cut**, and the code before the mark
leaves the quoting outside. -/
theorem cutFrom_code_append_mark : ∀ (k : Quoting) (cs : List Char),
    (cutFrom k cs).comment ≠ none →
      (cutFrom k cs).code.foldl Quoting.next k = .outside
        ∧ ∀ s, cutFrom k ((cutFrom k cs).code ++ '/' :: '/' :: s) = ⟨(cutFrom k cs).code, some s⟩
  | _, [], h => absurd rfl h
  | k, c :: cs, h => by
      rcases cutFrom_cases k c cs with ⟨rfl, -, rest, -, cut⟩ | ⟨apart, cut⟩
      · rw [cut]
        exact ⟨rfl, fun s => rfl⟩
      · rw [cut] at h ⊢
        obtain ⟨outside, again⟩ := cutFrom_code_append_mark (k.next c) cs h
        refine ⟨outside, fun s => ?_⟩
        change cutFrom k (c :: ((cutFrom (k.next c) cs).code ++ '/' :: '/' :: s)) = _
        rw [cutFrom_cons, again]
        · rfl
        · intro outside first slash
          obtain ⟨t, comment⟩ := Option.ne_none_iff_exists'.1 h
          refine apart outside first ?_
          -- The line goes on after its code as the new one does.
          rw [← eq_of_comment comment]
          simpa [List.head?_append] using slash

/-- **A line is cut at the first mark that lies in no string.**  The parts with the mark between
them are the line, the code is not cut again, and it is cut off before any other comment; all its
strings are closed.  Just the lines whose marks all lie in strings have no comment. -/
theorem cutComment_first_mark (line : List Char) :
    (cutComment line).line = line
      ∧ cutComment (cutComment line).code = ⟨(cutComment line).code, none⟩
      ∧ ((cutComment line).comment ≠ none → StringsClosed (cutComment line).code
        ∧ ∀ s, cutComment ((cutComment line).code ++ '/' :: '/' :: s)
          = ⟨(cutComment line).code, some s⟩)
      ∧ ((cutComment line).comment = none
        ↔ ∀ a b, line = a ++ '/' :: '/' :: b → LiesInString a ['/', '/']) := by
  refine ⟨cutComment_line line, cutFrom_code .outside line, fun h => ?_, ?_⟩
  · obtain ⟨outside, again⟩ := cutFrom_code_append_mark .outside line h
    have stands := Quoting.stands_foldl (cutComment line).code
    rw [cutComment, outside] at stands
    exact ⟨stands, again⟩
  · simp only [liesInString_mark_iff]
    exact comment_cutFrom_eq_none_iff .outside line

/-- A mark behind a string with a mark, an escaped quote and the other quote in it. -/
theorem cutComment_behind_string :
    (cutComment "'//\\'\"' / // b\"".toList).comment ≠ none
      ∧ StringsClosed "'//\\'\"' / ".toList
      ∧ cutComment ("'//\\'\"' / ".toList ++ '/' :: '/' :: ['\'', '/'])
        = ⟨"'//\\'\"' / ".toList, some ['\'', '/']⟩ :=
  have comment : (cutComment "'//\\'\"' / // b\"".toList).comment ≠ none := by decide
  have code : (cutComment "'//\\'\"' / // b\"".toList).code = "'//\\'\"' / ".toList := by decide
  have cut := (cutComment_first_mark "'//\\'\"' / // b\"".toList).2.2.1 comment
  ⟨comment, code ▸ cut.1, code ▸ cut.2 ['\'', '/']⟩

end ProtoSchema.Source
