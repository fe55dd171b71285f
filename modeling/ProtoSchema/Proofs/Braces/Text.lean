import ProtoSchema.Proofs.Braces.Faults
import ProtoSchema.Proofs.Document.Statements

/-!
# Proofs/Braces/Text — the braces of a text and those of its statements

Each brace of a text without comments becomes the brace of one statement, whatever stands around it,
but for an empty body, which goes with both of its braces.  So the two words of braces are alike
(`alike_statements`), and whether the text is a document is read off its own braces
(`ofText_braces`).
-/

namespace ProtoSchema

open Text Source

/-- **The brace that a character is.** -/
def Brace.ofChar (c : Char) : Brace :=
  if c = '{' then .opener "" else if c = '}' then .closer else .neutral

/-- The brace that a lexeme is. -/
def Source.Lexeme.brace : Lexeme → Brace
  | .opening => .opener ""
  | .closing => .closer
  | _ => .neutral

namespace Brace

theorem ofChar_of_isBlank {c : Char} (h : isBlank c = true) : ofChar c = .neutral := by
  have opening : c ≠ '{' := by
    rintro rfl
    exact absurd h (by decide)
  have closing : c ≠ '}' := by
    rintro rfl
    exact absurd h (by decide)
  rw [ofChar, if_neg opening, if_neg closing]

/-- A stretch of blanks has no braces. -/
theorem alike_blanks {cs : List Char} (h : ∀ c ∈ cs, isBlank c = true) :
    Alike (cs.map ofChar) [] :=
  .neutral fun b hb => by
    obtain ⟨c, hc, rfl⟩ := List.mem_map.1 hb
    exact ofChar_of_isBlank (h c hc)

/-! ## From a text to its lexemes -/

theorem brace_consChar (c : Char) (ls : List Lexeme) :
    Alike ((Lexeme.consChar c ls).map Lexeme.brace) (ls.map Lexeme.brace) := by
  unfold Lexeme.consChar
  split <;> exact fun _ => rfl

/-- A delimiter has the brace of its character. -/
theorem brace_of_ofDelimiter? {c : Char} {l : Lexeme} (h : Lexeme.ofDelimiter? c = some l) :
    l.brace = ofChar c := by
  rcases Lexeme.cases_of_ofDelimiter? h with ⟨rfl, rfl⟩ | ⟨rfl, rfl⟩ | ⟨rfl, rfl⟩ <;> rfl

theorem ofChar_of_ofDelimiter? {c : Char} (h : Lexeme.ofDelimiter? c = none) :
    ofChar c = .neutral := by
  obtain ⟨opening, closing, -⟩ := Lexeme.ofDelimiter?_eq_none_iff.1 h
  rw [ofChar, if_neg opening, if_neg closing]

/-- Code has the braces of its characters. -/
theorem alike_ofCode : ∀ cs : List Char,
    Alike ((Lexeme.ofCode cs).map Lexeme.brace) (cs.map ofChar)
  | [] => fun _ => rfl
  | c :: cs => by
      have rest := alike_ofCode cs
      cases delimiter : Lexeme.ofDelimiter? c with
      | some l =>
        rw [Lexeme.ofCode_cons_of_some delimiter, List.map_cons, List.map_cons, List.map_cons,
          brace_of_ofDelimiter? delimiter]
        exact rest.cons _
      | none =>
        rw [Lexeme.ofCode_cons_of_none delimiter, List.map_cons, ofChar_of_ofDelimiter? delimiter]
        exact (brace_consChar c _).trans rest

/-- Line breaks are no braces. -/
theorem alike_lines (cs : List Char) :
    Alike ((lines cs).flatMap fun l => l.map ofChar) (cs.map ofChar) :=
  splitOnP_induction
    (motive := fun cs ls => Alike (ls.flatMap fun l => l.map ofChar) (cs.map ofChar))
    (fun cs _ => by rw [List.flatMap_singleton])
    (fun a s b _ hs ih => by
      have sep : ofChar s = .neutral := ofChar_of_isBlank (isBlank_of_isLineBreak hs)
      rw [List.flatMap_cons, List.map_append, List.map_cons, sep]
      exact (Alike.refl _).append ih) cs

end Brace

/-! ## From lexemes to statements -/

/-- Text that waits to become a statement: it holds neither brace and no two slashes. -/
structure Source.Waiting (cs : List Char) : Prop where
  opening : '{' ∉ cs
  closing : '}' ∉ cs
  unpaired : Unpaired '/' '/' cs

/-- A statement without braces is neutral. -/
theorem braceOf_of_not_mem {cs : List Char} (opening : '{' ∉ cs) (closing : '}' ∉ cs) :
    braceOf (String.ofList cs) = .neutral := by
  have shut := Statement.endsOpen_of_not_mem opening
  have other : cs ≠ ['}'] := by
    rintro rfl
    exact closing List.mem_cons_self
  simp [braceOf, Statement.body, shut, other]

theorem bracesOf_emit {cs : List Char} (h : Waiting cs) :
    Brace.Alike (bracesOf ((emit cs).map String.ofList)) [] := by
  refine .neutral fun b hb => ?_
  obtain ⟨text, ht, rfl⟩ := List.mem_map.1 hb
  obtain ⟨s, hs, rfl⟩ := List.mem_map.1 ht
  obtain rfl : s = normalize cs := eq_normalize_of_mem_emit hs
  exact braceOf_of_not_mem (not_mem_normalize (by decide) (by decide) h.opening)
    (not_mem_normalize (by decide) (by decide) h.closing)

/-- A statement that is cut off at an opening brace opens a container. -/
theorem bracesOf_emit_opening {cs : List Char} (h : Waiting cs) :
    ∃ name, bracesOf ((emit (cs ++ [' ', '{'])).map String.ofList) = [.opener name] := by
  obtain ⟨front, split, plain⟩ := exists_normalize_append_brace cs
  have unpaired : Unpaired '/' '/' (front ++ ['{']) :=
    split ▸ unpaired_normalize (h.unpaired.append (unpaired_of_not_mem (by decide)) (by simp))
  have comment : Statement.isComment (front ++ ['{']) = false :=
    Bool.eq_false_iff.2 fun slashes =>
      unpaired_iff.1 unpaired (List.isPrefixOf_iff_prefix.1 slashes).isInfix
  have free : '}' ∉ front := fun mem => by
    rcases plain _ mem with space | mem
    · exact absurd space (by decide)
    · exact not_mem_normalize (by decide) (by decide) h.closing mem
  obtain ⟨code, other⟩ := Statement.code_append_brace comment free
  refine ⟨(Statement.ofText (String.ofList (front ++ ['{']))).frameName, ?_⟩
  rw [emit, split, if_neg (by simp)]
  simp [bracesOf, braceOf, code, other, Statement.endsOpen_append_brace]

/-- **Grouping leaves the braces of the lexemes.** -/
theorem alike_group : ∀ {ls : List Lexeme} {pending : List Char}, Waiting pending →
    (∀ l ∈ ls, l.IsCode) → (∀ cs, Lexeme.text cs ∈ ls → Unpaired '/' '/' cs) →
      Brace.Alike (bracesOf ((group pending ls).map String.ofList)) (ls.map Lexeme.brace)
  | [], pending, hp, _, _ => bracesOf_emit hp
  | l :: ls, pending, hp, code, unpaired => by
      obtain ⟨first, others⟩ := List.forall_mem_cons.1 code
      have rest : ∀ {pending}, Waiting pending →
          Brace.Alike (bracesOf ((group pending ls).map String.ofList)) (ls.map Lexeme.brace) :=
        fun hp => alike_group hp others fun cs hcs => unpaired cs (List.mem_cons_of_mem _ hcs)
      have none : Waiting [] := ⟨by simp, by simp, List.isChain_nil⟩
      cases l with
      | text cs =>
        have piece := unpaired cs List.mem_cons_self
        have opening : '{' ∉ cs := fun mem => nomatch first _ mem
        have closing : '}' ∉ cs := fun mem => nomatch first _ mem
        refine rest ⟨by simp [hp.opening, opening], by simp [hp.closing, closing], ?_⟩
        exact hp.unpaired.append (unpaired_cons.2 ⟨by simp, piece⟩) (by simp)
      | opening =>
        obtain ⟨name, opens⟩ := bracesOf_emit_opening hp
        rw [group, List.map_append, bracesOf, List.map_append, ← bracesOf, ← bracesOf, opens]
        exact (rest none).opener name ""
      | closing =>
        rw [group, List.map_append, List.map_append, bracesOf, List.map_append, List.map_append,
          ← bracesOf, ← bracesOf, ← bracesOf, List.append_assoc]
        exact (bracesOf_emit hp).append ((rest none).cons .closer)
      | stop =>
        rw [group, List.map_append, bracesOf, List.map_append, ← bracesOf, ← bracesOf]
        exact (bracesOf_emit hp).append (rest none)
      | comment cs => exact first.elim

/-! ## From a text to its statements -/

/-- Empty bodies go with both of their braces. -/
theorem Text.Replaced.alike {cs ds : List Char} (h : Replaced IsEmptyBody [')', ';'] cs ds) :
    Brace.Alike (ds.map Brace.ofChar) (cs.map Brace.ofChar) := by
  induction h with
  | nil => exact .refl _
  | copy c _ ih => exact ih.cons _
  | replace body _ ih =>
    obtain ⟨gap, inner, hg, hi, rfl⟩ := body
    have gaps := Brace.alike_blanks fun c hc => isBlank_of_isGap (hg c hc)
    have inners := (Brace.alike_blanks hi).append (.refl [.closer])
    have bodies := (gaps.append ((inners.cons (.opener "")).trans (.pair ""))).symm
    rw [List.map_append, List.map_append]
    refine .append ?_ ih
    have phrase : (')' :: (gap ++ '{' :: (inner ++ ['}']))).map Brace.ofChar = .neutral
        :: (gap.map Brace.ofChar ++ .opener "" :: (inner.map Brace.ofChar ++ [.closer])) := by
      rw [List.map_cons, List.map_append, List.map_cons, List.map_append]
      rfl
    rw [phrase]
    exact fun n => bodies n

theorem alike_tidy {cs : List Char} (line : Unpaired '/' '/' cs) (block : Unpaired '/' '*' cs) :
    Brace.Alike ((tidy cs).map Brace.ofChar) (cs.map Brace.ofChar) := by
  have blanks : Brace.Alike ((cs.takeWhile isBlank).map Brace.ofChar) [] :=
    Brace.alike_blanks fun _ => List.mem_takeWhile_imp
  have trimmed : Brace.Alike (cs.map Brace.ofChar) ((trimStart cs).map Brace.ofChar) := by
    conv_lhs => rw [← List.takeWhile_append_dropWhile (p := isBlank) (l := cs), List.map_append]
    exact blanks.append (.refl _)
  rw [tidy_of_unpaired line block]
  exact (emptyBody_finds.replaced _).alike.trans trimmed.symm

/-- A text without `//` is code. -/
theorem alike_ofText {cs : List Char} (line : Unpaired '/' '/' cs) :
    Brace.Alike ((Lexeme.ofText cs).map Lexeme.brace) (cs.map Brace.ofChar) := by
  rw [ofText_of_unpaired line, List.map_flatMap]
  refine .trans ?_ (Brace.alike_lines cs)
  induction lines cs with
  | nil => exact .refl _
  | cons l ls ih => exact (Brace.alike_ofCode l).append ih

/-- **A text without comments has the braces of its statements.** -/
theorem alike_statements {text : String} (line : Unpaired '/' '/' text.toList)
    (block : Unpaired '/' '*' text.toList) :
    Brace.Alike (bracesOf (statements text)) (text.toList.map Brace.ofChar) := by
  have tidied : Unpaired '/' '/' (tidy text.toList) := by
    rw [tidy_of_unpaired line block]
    exact unpaired_emptyBody (unpaired_trimStart line)
  refine .trans ?_ ((alike_ofText tidied).trans (alike_tidy line block))
  have pieces := ofText_of_unpaired tidied
  refine alike_group ⟨by simp, by simp, List.isChain_nil⟩ ?_ ?_
  · intro l hl
    rw [pieces] at hl
    obtain ⟨piece, -, hl⟩ := List.mem_flatMap.1 hl
    exact Lexeme.isCode_of_mem_ofCode piece l hl
  · intro cs hcs
    rw [pieces] at hcs
    obtain ⟨piece, hp, hcs⟩ := List.mem_flatMap.1 hcs
    exact tidied.of_infix ((Lexeme.infix_of_text_mem_ofCode hcs).trans
      (infix_of_mem_splitOnP isLineBreak _ piece hp))

/-! ## The document of a text -/

namespace Document

open Brace

/-- **A text without comments is a document just if its braces are balanced.**  Otherwise it fails:
with a stray closing brace if some prefix closes more than it opens, and else at its end, where as
many containers are open as there are opening braces more than closing ones. -/
theorem ofText_braces {text : String} (line : ¬ "//".toList <:+: text.toList)
    (block : ¬ "/*".toList <:+: text.toList) :
    ((∃ d, ofText text = .ok d) ↔ Balanced (text.toList.map ofChar))
    ∧ (¬ Covered (text.toList.map ofChar) →
        ∃ place, ofText text = .error ⟨.strayClose, some place⟩)
    ∧ (Covered (text.toList.map ofChar) → ¬ Balanced (text.toList.map ofChar) →
        ∃ names : List String,
          names.length = openers (text.toList.map ofChar) - closers (text.toList.map ofChar)
          ∧ ofText text = .error ⟨.unclosed names, none⟩) := by
  have alike := alike_statements (unpaired_iff.2 line) (unpaired_iff.2 block)
  have stray : ¬ Covered (text.toList.map ofChar) →
      ∃ place, ofText text = .error ⟨.strayClose, some place⟩ := fun uncovered => by
    obtain ⟨_, _, _, -, -, -, failed⟩ :=
      ofStatements_of_not_covered fun covered => uncovered (alike.covered_iff.1 covered)
    exact ⟨_, failed⟩
  have unclosed : Covered (text.toList.map ofChar) → ¬ Balanced (text.toList.map ofChar) →
      ∃ names : List String,
        names.length = openers (text.toList.map ofChar) - closers (text.toList.map ofChar)
        ∧ ofText text = .error ⟨.unclosed names, none⟩ := fun covered unbalanced => by
    have covered := alike.covered_iff.2 covered
    have some : unmatched (bracesOf (statements text)) ≠ [] := fun none =>
      unbalanced (alike.balanced_iff.1 (balanced_iff.2 ⟨covered, none⟩))
    refine ⟨_, ?_, ofStatements_of_unmatched covered some⟩
    rw [length_unmatched_of_covered covered, alike.openers_sub_closers covered]
  refine ⟨⟨?_, fun balanced => ofStatements_of_balanced (alike.balanced_iff.2 balanced)⟩,
    stray, unclosed⟩
  rintro ⟨d, read⟩
  by_contra unbalanced
  by_cases covered : Covered (text.toList.map ofChar)
  · obtain ⟨names, -, failed⟩ := unclosed covered unbalanced
    exact nomatch read.symm.trans failed
  · obtain ⟨place, failed⟩ := stray covered
    exact nomatch read.symm.trans failed

/-- A brace in quotes counts as well, and the braces of an empty body match. -/
theorem ofText_braces_quoted :
    ¬ "//".toList <:+: "option a = '\x7b';\nrpc F (A) returns (B) \x7b\x7d\n\x7d".toList
    ∧ ¬ "/*".toList <:+: "option a = '\x7b';\nrpc F (A) returns (B) \x7b\x7d\n\x7d".toList
    ∧ ∃ d, ofText "option a = '\x7b';\nrpc F (A) returns (B) \x7b\x7d\n\x7d" = .ok d :=
  ⟨unpaired_iff.1 (by decide), unpaired_iff.1 (by decide),
    (ofText_braces (unpaired_iff.1 (by decide)) (unpaired_iff.1 (by decide))).1.2 (by decide)⟩

end Document

end ProtoSchema
