import ProtoSchema.Proofs.Source.Line

/-!
# Proofs/Source/Lexemes — the lexemes of code

The lexemes of code spell it (`Lexeme.spell_ofCode`), so a text piece is a stretch of the code, and
none of them holds a delimiter.  A text without `//` has no other lexemes than those of its code; a
comment after a text that ends in code is a statement of its own (`exists_group_mark`).
-/

namespace ProtoSchema.Source

open Text

/-- Without `//` the lexemes of a text are those of its lines, read as code. -/
theorem ofText_of_unpaired {cs : List Char} (h : Unpaired '/' '/' cs) :
    Lexeme.ofText cs = (lines cs).flatMap Lexeme.ofCode :=
  List.flatMap_congr fun l hl =>
    ofLine_of_unpaired (h.of_infix (infix_of_mem_splitOnP isLineBreak cs l hl))

/-- The characters of a lexeme. -/
def Lexeme.spell : Lexeme → List Char
  | .text cs => cs
  | .opening => ['{']
  | .closing => ['}']
  | .stop => [';']
  | .comment cs => '/' :: '/' :: cs

theorem Lexeme.spell_of_ofDelimiter? {c : Char} {l : Lexeme} (h : ofDelimiter? c = some l) :
    l.spell = [c] := by
  rcases cases_of_ofDelimiter? h with ⟨rfl, rfl⟩ | ⟨rfl, rfl⟩ | ⟨rfl, rfl⟩ <;> rfl

theorem Lexeme.spell_consChar (c : Char) (ls : List Lexeme) :
    (consChar c ls).flatMap spell = c :: ls.flatMap spell := by
  unfold consChar
  split <;> rfl

/-- Code is spelled by its lexemes. -/
theorem Lexeme.spell_ofCode : ∀ cs : List Char, (ofCode cs).flatMap spell = cs
  | [] => rfl
  | c :: cs => by
      have rest := spell_ofCode cs
      cases delimiter : ofDelimiter? c with
      | some l =>
        rw [ofCode_cons_of_some delimiter, List.flatMap_cons, List.flatMap_cons,
          spell_of_ofDelimiter? delimiter, rest]
        rfl
      | none =>
        rw [ofCode_cons_of_none delimiter, spell_consChar, rest]

/-- A text piece without delimiters, or a delimiter. -/
def Lexeme.IsCode : Lexeme → Prop
  | .text cs => ∀ c ∈ cs, ofDelimiter? c = none
  | .comment _ => False
  | _ => True

theorem Lexeme.isCode_consChar {c : Char} {ls : List Lexeme} (hc : ofDelimiter? c = none)
    (h : ∀ l ∈ ls, l.IsCode) : ∀ l ∈ consChar c ls, l.IsCode := by
  have single : (text [c]).IsCode := List.forall_mem_singleton.2 hc
  unfold consChar
  split
  · next cs ls =>
    obtain ⟨piece, rest⟩ := List.forall_mem_cons.1 h
    have grown : (text (c :: cs)).IsCode := List.forall_mem_cons.2 ⟨hc, piece⟩
    exact List.forall_mem_cons.2 ⟨grown, rest⟩
  · exact List.forall_mem_cons.2 ⟨single, h⟩

/-- Code is cut at its delimiters and holds no comments. -/
theorem Lexeme.isCode_of_mem_ofCode : ∀ cs : List Char, ∀ l ∈ ofCode cs, l.IsCode
  | [] => List.forall_mem_singleton.2 (by simp [IsCode])
  | c :: cs => by
      have rest := isCode_of_mem_ofCode cs
      cases delimiter : ofDelimiter? c with
      | some l =>
        have single : l.IsCode := by
          rcases cases_of_ofDelimiter? delimiter with ⟨-, rfl⟩ | ⟨-, rfl⟩ | ⟨-, rfl⟩ <;> trivial
        rw [ofCode_cons_of_some delimiter]
        exact List.forall_mem_cons.2 ⟨by simp [IsCode], List.forall_mem_cons.2 ⟨single, rest⟩⟩
      | none =>
        rw [ofCode_cons_of_none delimiter]
        exact isCode_consChar delimiter rest

/-- The text pieces of code stand in it. -/
theorem Lexeme.infix_of_text_mem_ofCode {cs ds : List Char} (h : text ds ∈ ofCode cs) :
    ds <:+: cs := by
  have part := List.infix_of_mem_flatten (List.mem_map_of_mem (f := spell) h)
  rwa [← List.flatMap_def, spell_ofCode] at part

/-! ## A comment at the end of a text -/

/-- The last line of a text. -/
def lastLine (cs : List Char) : List Char := (lines cs).getLastD []

theorem lines_append_of_unbroken {a b l : List Char} {ls : List (List Char)}
    (ha : ∀ c ∈ a, isLineBreak c = false) (hb : lines b = l :: ls) :
    lines (a ++ b) = (a ++ l) :: ls := by
  induction a with
  | nil => exact hb
  | cons c a ih =>
    have rest := ih fun d hd => ha d (List.mem_cons_of_mem c hd)
    rw [lines] at rest ⊢
    rw [List.cons_append, List.splitOnP_cons_eq_if_modifyHead, rest, ha c List.mem_cons_self]
    rfl

/-- **The last line of a text goes on in what is written after it**, and the lines before it stay.
-/
theorem exists_lines_append (a : List Char) :
    ∃ front, ∀ {b l : List Char} {ls : List (List Char)}, lines b = l :: ls →
      lines (a ++ b) = front ++ (lastLine a ++ l) :: ls := by
  have split : ∃ front last, lines a = front ++ [last] ∧
      ∀ {b l : List Char} {ls : List (List Char)}, lines b = l :: ls →
        lines (a ++ b) = front ++ (last ++ l) :: ls :=
    splitOnP_induction (motive := fun a as => ∃ front last, as = front ++ [last] ∧
        ∀ {b l : List Char} {ls : List (List Char)}, lines b = l :: ls →
          lines (a ++ b) = front ++ (last ++ l) :: ls)
      (fun a free => ⟨[], a, rfl, lines_append_of_unbroken free⟩)
      (fun a s b free sep ih => by
        obtain ⟨front, last, split, ih⟩ := ih
        refine ⟨a :: front, last, by rw [split, List.cons_append], fun {c l ls} hc => ?_⟩
        rw [List.append_assoc, List.cons_append, lines,
          List.splitOnP_append_cons_of_forall_mem free s sep, ← lines, ih hc, List.cons_append]) a
  obtain ⟨front, last, split, append⟩ := split
  have same : lastLine a = last := by rw [lastLine, split]; simp
  exact ⟨front, fun hb => same ▸ append hb⟩

/-- **A text that ends in code**: its last line holds no comment and ends outside quotes. -/
structure EndsInCode (cs : List Char) : Prop where
  uncommented : (cutComment (lastLine cs)).comment = none
  unquoted : (lastLine cs).foldl Quoting.next .outside = .outside

/-- A character that does not start a comment is code. -/
theorem cutFrom_cons {q : Quoting} {c : Char} {cs : List Char}
    (h : q = .outside → c = '/' → cs.head? ≠ some '/') :
    cutFrom q (c :: cs) = (cutFrom (q.next c) cs).cons c := by
  conv_lhs => unfold cutFrom
  split
  · next rest => exact absurd rfl (h rfl rfl)
  · rfl

/-- A mark after code starts a comment there, or with a slash that the code ends in. -/
theorem cutFrom_mark : ∀ {q : Quoting} {cs : List Char}, (cutFrom q cs).comment = none →
    cs.foldl Quoting.next q = .outside → ∃ code slash, (slash = [] ∨ slash = ['/']) ∧
      ∀ k, cutFrom q (cs ++ '/' :: '/' :: k) = ⟨code, some (slash ++ k)⟩
  | q, [], _, unquoted => by
      obtain rfl : q = .outside := unquoted
      exact ⟨[], [], .inl rfl, fun k => rfl⟩
  | q, c :: cs, uncommented, unquoted => by
      by_cases mark : q = .outside ∧ c = '/' ∧ cs = []
      · obtain ⟨rfl, rfl, rfl⟩ := mark
        exact ⟨[], ['/'], .inr rfl, fun k => rfl⟩
      · have apart : q = .outside → c = '/' → cs.head? ≠ some '/' := by
          rintro rfl rfl slash
          obtain ⟨rest, rfl⟩ := List.head?_eq_some_iff.1 slash
          exact nomatch uncommented
        rw [cutFrom_cons apart] at uncommented
        obtain ⟨code, slash, hs, cut⟩ := cutFrom_mark uncommented unquoted
        refine ⟨c :: code, slash, hs, fun k => ?_⟩
        rw [List.cons_append, cutFrom_cons, cut]
        · rfl
        · intro hq hc
          cases cs with
          | nil => exact absurd ⟨hq, hc, rfl⟩ mark
          | cons d cs => exact apart hq hc

/-- Grouping what follows goes on with the text that waits. -/
theorem exists_group_append : ∀ (ls : List Lexeme) (pending : List Char),
    ∃ done waiting, ∀ rest, group pending (ls ++ rest) = done ++ group waiting rest
  | [], pending => ⟨[], pending, fun _ => rfl⟩
  | l :: ls, pending => by
      cases l with
      | text cs => exact exists_group_append ls (pending ++ ' ' :: cs)
      | opening =>
        obtain ⟨done, waiting, grouped⟩ := exists_group_append ls []
        refine ⟨emit (pending ++ [' ', '{']) ++ done, waiting, fun rest => ?_⟩
        rw [List.cons_append, group, grouped, List.append_assoc]
      | closing =>
        obtain ⟨done, waiting, grouped⟩ := exists_group_append ls []
        refine ⟨emit pending ++ emit ['}'] ++ done, waiting, fun rest => ?_⟩
        rw [List.cons_append, group, grouped, List.append_assoc (emit pending ++ emit ['}'])]
      | stop =>
        obtain ⟨done, waiting, grouped⟩ := exists_group_append ls []
        refine ⟨emit pending ++ done, waiting, fun rest => ?_⟩
        rw [List.cons_append, group, grouped, List.append_assoc]
      | comment cs =>
        obtain ⟨done, waiting, grouped⟩ := exists_group_append ls pending
        refine ⟨emit ('/' :: '/' :: ' ' :: cs) ++ done, waiting, fun rest => ?_⟩
        rw [List.cons_append, group, grouped, List.append_assoc]

/-- **A comment after a text that ends in code is a statement of its own**, and neither what stands
before it nor what stands after it depends on its words. -/
theorem exists_group_mark {cs : List Char} (h : EndsInCode cs) :
    ∃ done waiting slash, (slash = [] ∨ slash = ['/']) ∧
      ∀ {k rest l ls}, (∀ c ∈ k, isLineBreak c = false) → lines rest = l :: ls →
        group [] (Lexeme.ofText (cs ++ '/' :: '/' :: (k ++ rest)))
          = done ++ (emit ('/' :: '/' :: ' ' :: (slash ++ (k ++ l)))
            ++ group waiting (ls.flatMap Lexeme.ofLine)) := by
  obtain ⟨front, append⟩ := exists_lines_append cs
  obtain ⟨code, slash, hs, cut⟩ := cutFrom_mark h.uncommented h.unquoted
  obtain ⟨done, waiting, grouped⟩ := exists_group_append
    (front.flatMap Lexeme.ofLine ++ Lexeme.ofCode code) []
  refine ⟨done, waiting, slash, hs, fun {k rest l ls} unbroken hl => ?_⟩
  have mark : ∀ c ∈ '/' :: '/' :: k, isLineBreak c = false := fun c hc => by
    rcases List.mem_cons.1 hc with rfl | hc
    · decide
    rcases List.mem_cons.1 hc with rfl | hc
    · decide
    · exact unbroken c hc
  have line : Lexeme.ofLine (lastLine cs ++ '/' :: '/' :: (k ++ l))
      = Lexeme.ofCode code ++ [.comment (slash ++ (k ++ l))] := by
    rw [Lexeme.ofLine, cutComment, cut]
    rfl
  have split : lines (cs ++ '/' :: '/' :: (k ++ rest))
      = front ++ (lastLine cs ++ '/' :: '/' :: (k ++ l)) :: ls :=
    append (lines_append_of_unbroken mark hl)
  rw [Lexeme.ofText, split, List.flatMap_append, List.flatMap_cons, line, ← List.append_assoc,
    ← List.append_assoc, List.append_assoc, grouped]
  rfl

end ProtoSchema.Source
