import ProtoSchema.Proofs.Source.Lexemes

/-!
# Proofs/Source/Spacing — blanks that make no difference to a statement

A stretch of blanks in a text can be any other (`sameForm_respace`), and there may be none where the
normal form has a space of its own, around an equals sign (`sameForm_equals`), or has none, at
either end.  Texts that have the same normal form whatever follows make the same statements
(`SameForm.group_eq`).  So a blank in front of a text does not count, nor which line breaks stand
between two lines (`group_ofText_breaks`).
-/

namespace ProtoSchema.Source

open Text Text.Letterwise

variable {a b u v pending waiting : List Char}

/-! ## Results of methods -/

/-- Between the parentheses `returns` is the only word. -/
theorem isReturns_iff {m : List Char} :
    IsReturns (')' :: (m ++ ['('])) ↔ words m = ["returns".toList] := by
  have word : IsWord "returns".toList := ⟨by decide, by decide⟩
  rw [words_eq_singleton_iff word]
  constructor
  · rintro ⟨before, after, hb, ha, same⟩
    have same : m ++ ['('] = before ++ ("returns".toList ++ after) ++ ['('] := by
      simpa only [List.append_assoc] using (List.cons.inj same).2
    exact ⟨before, after, hb, ha, (List.append_inj' same rfl).1⟩
  · rintro ⟨before, after, hb, ha, rfl⟩
    exact ⟨before, after, hb, ha, by simp only [List.append_assoc]⟩

/-- Stretches of blanks can be exchanged in `returns` between parentheses. -/
theorem exchanges_returns (hu : u ≠ []) (hv : v ≠ []) (blankU : ∀ c ∈ u, isBlank c = true)
    (blankV : ∀ c ∈ v, isBlank c = true) : Exchanges IsReturns u v := by
  refine .of_between hu hv ?_
  rintro _ ⟨before, after, -, -, rfl⟩
  refine ⟨[')'], before ++ ("returns".toList ++ after), ['('], by simp, by simp, ?_,
    by simp only [List.append_assoc, List.singleton_append], fun s t => ?_⟩
  · have opening : '(' ∉ u ∧ '(' ∉ v :=
      ⟨not_mem_of_blank blankU (by decide), not_mem_of_blank blankV (by decide)⟩
    have closing : ')' ∉ u ∧ ')' ∉ v :=
      ⟨not_mem_of_blank blankU (by decide), not_mem_of_blank blankV (by decide)⟩
    exact List.forall_mem_cons.2 ⟨closing, List.forall_mem_singleton.2 opening⟩
  · rw [List.singleton_append, List.singleton_append, isReturns_iff, isReturns_iff,
      words_append_blanks hu blankU, words_append_blanks hv blankV]

/-! ## Normal forms -/

/-- **The texts have the same normal form, whatever follows them.** -/
def SameForm (pending waiting : List Char) : Prop :=
  ∀ rest, normalize (pending ++ rest) = normalize (waiting ++ rest)

theorem SameForm.symm (h : SameForm pending waiting) : SameForm waiting pending :=
  fun rest => (h rest).symm

theorem SameForm.append (h : SameForm pending waiting) (cs : List Char) :
    SameForm (pending ++ cs) (waiting ++ cs) := fun rest => by
  rw [List.append_assoc, h, List.append_assoc]

theorem SameForm.emit_eq (h : SameForm pending waiting) : emit pending = emit waiting := by
  have same := h []
  rw [List.append_nil, List.append_nil] at same
  rw [emit, emit, same]

/-- The words that are left once `returns` is spaced do not depend on the blanks between them. -/
theorem collapse_returns_respace (hu : u ≠ []) (hv : v ≠ []) (blankU : ∀ c ∈ u, isBlank c = true)
    (blankV : ∀ c ∈ v, isBlank c = true) (a b : List Char) :
    collapse (replaceAll returnsBetween (a ++ u ++ b))
      = collapse (replaceAll returnsBetween (a ++ v ++ b)) := by
  have exchanges := exchanges_returns hu hv blankU blankV
  rcases returnsBetween_finds.differ_replaceAll exchanges a b with same | ⟨x, y, first, second⟩
  · rw [same]
  · rw [first, second, collapse, collapse, words_append_blanks hu blankU,
      words_append_blanks hv blankV]

theorem spaceEquals_of_blanks (blank : ∀ c ∈ u, isBlank c = true) : spaceEquals u = u :=
  spaceEquals_of_not_mem (not_mem_of_blank blank (by decide))

/-- **A stretch of blanks can be any other.** -/
theorem sameForm_respace (hu : u ≠ []) (hv : v ≠ []) (blankU : ∀ c ∈ u, isBlank c = true)
    (blankV : ∀ c ∈ v, isBlank c = true) (a : List Char) : SameForm (a ++ u) (a ++ v) := fun b => by
  simp only [normalize, spaceEquals_append, spaceEquals_of_blanks blankU,
    spaceEquals_of_blanks blankV]
  exact collapse_returns_respace hu hv blankU blankV _ _

theorem forall_mem_space : ∀ c ∈ [' '], isBlank c = true := by simp [isBlank_space]

/-- **Blanks around an equals sign do not count.** -/
theorem sameForm_equals (blankU : ∀ c ∈ u, isBlank c = true) (blankV : ∀ c ∈ v, isBlank c = true)
    (a : List Char) : SameForm (a ++ (u ++ '=' :: v)) (a ++ ['=']) := fun b => by
  have sign : ∀ cs, spaceEquals ('=' :: cs) = ' ' :: '=' :: ' ' :: spaceEquals cs := fun _ => rfl
  have before : ∀ c ∈ u ++ [' '], isBlank c = true :=
    List.forall_mem_append.2 ⟨blankU, forall_mem_space⟩
  have after : ∀ c ∈ [' '] ++ v, isBlank c = true :=
    List.forall_mem_append.2 ⟨forall_mem_space, blankV⟩
  rw [List.append_assoc a ['=']]
  simp only [List.singleton_append, normalize, spaceEquals_append, sign,
    spaceEquals_of_blanks blankU, spaceEquals_of_blanks blankV]
  generalize spaceEquals a = a
  generalize spaceEquals b = b
  calc collapse (replaceAll returnsBetween (a ++ (u ++ ' ' :: '=' :: ' ' :: v) ++ b))
      = collapse (replaceAll returnsBetween (a ++ (u ++ [' ']) ++ ('=' :: ' ' :: v ++ b))) := by
        simp only [List.append_assoc, List.cons_append, List.nil_append]
    _ = collapse (replaceAll returnsBetween (a ++ [' '] ++ ('=' :: ' ' :: v ++ b))) :=
        collapse_returns_respace (by simp) (by simp) before forall_mem_space _ _
    _ = collapse (replaceAll returnsBetween (a ++ [' ', '='] ++ ([' '] ++ v) ++ b)) := by
        simp only [List.append_assoc, List.cons_append, List.nil_append]
    _ = collapse (replaceAll returnsBetween (a ++ [' ', '='] ++ [' '] ++ b)) :=
        collapse_returns_respace (by simp) (by simp) after forall_mem_space _ _
    _ = collapse (replaceAll returnsBetween (a ++ ' ' :: '=' :: ' ' :: b)) := by
        simp only [List.append_assoc, List.cons_append, List.nil_append]

/-- Blanks in front of a text do not count. -/
theorem sameForm_blanks_append (blank : ∀ c ∈ u, isBlank c = true) (a : List Char) :
    SameForm (u ++ a) a := fun b => by
  rw [List.append_assoc, normalize_blanks_append blank]

/-- Blanks after a text do not change its normal form. -/
theorem normalize_append_blanks (blank : ∀ c ∈ u, isBlank c = true) (cs : List Char) :
    normalize (cs ++ u) = normalize cs := by
  have copied := (copies_returnsBetween (not_mem_of_blank blank (by decide))).replaceAll_eq
  rw [normalize, spaceEquals_append, spaceEquals_of_blanks blank,
    replaceAll_returns_append (not_mem_of_blank blank (by decide)), copied, collapse,
    words_append_of_blanks blank]
  rfl

/-! ## Statements -/

/-- **Texts that wait make the same statements if they have the same form.** -/
theorem SameForm.group_eq : ∀ {ls : List Lexeme} {pending waiting : List Char},
    SameForm pending waiting → group pending ls = group waiting ls
  | [], _, _, h => h.emit_eq
  | .text cs :: _, _, _, h => (h.append (' ' :: cs)).group_eq
  | .opening :: _, _, _, h => by rw [group, group, (h.append [' ', '{']).emit_eq]
  | .closing :: _, _, _, h => by rw [group, group, h.emit_eq]
  | .stop :: _, _, _, h => by rw [group, group, h.emit_eq]
  | .comment _ :: _, _, _, h => by rw [group, group, h.group_eq]

/-- Blanks that wait do not count. -/
theorem group_of_blanks (blank : ∀ c ∈ u, isBlank c = true) (ls : List Lexeme) :
    group u ls = group [] ls := by
  have same := sameForm_blanks_append blank []
  rw [List.append_nil] at same
  exact same.group_eq

/-- Code starts with a text piece. -/
theorem exists_text_ofCode : ∀ cs : List Char, ∃ t ls, Lexeme.ofCode cs = .text t :: ls
  | [] => ⟨[], [], rfl⟩
  | c :: cs => by
      cases delimiter : Lexeme.ofDelimiter? c with
      | some l => exact ⟨[], _, Lexeme.ofCode_cons_of_some delimiter cs⟩
      | none =>
        obtain ⟨t, ls, code⟩ := exists_text_ofCode cs
        exact ⟨c :: t, ls, by rw [Lexeme.ofCode_cons_of_none delimiter, code]; rfl⟩

theorem exists_lines (cs : List Char) : ∃ l ls, lines cs = l :: ls :=
  List.exists_cons_of_ne_nil (List.splitOnP_ne_nil isLineBreak cs)

theorem ofDelimiter?_of_isBlank {c : Char} (h : isBlank c = true) :
    Lexeme.ofDelimiter? c = none := by
  have other : ∀ d, isBlank d = false → c ≠ d := fun d hd e => by simp [← e, h] at hd
  exact Lexeme.ofDelimiter?_eq_none_iff.2
    ⟨other '{' (by decide), other '}' (by decide), other ';' (by decide)⟩

/-- A blank in front of a text is part of its first piece, or ends a line. -/
theorem exists_text_ofText_cons {c : Char} (hc : isBlank c = true) (cs : List Char) :
    ∃ t ls, Lexeme.ofText cs = .text t :: ls
      ∧ (Lexeme.ofText (c :: cs) = .text (c :: t) :: ls
        ∨ Lexeme.ofText (c :: cs) = .text [] :: .text t :: ls) := by
  obtain ⟨l, ls, split⟩ := exists_lines cs
  obtain ⟨t, rest, code⟩ := exists_text_ofCode (cutComment l).code
  have first : Lexeme.ofText cs = .text t :: (rest
      ++ (cutComment l).comment.toList.map Lexeme.comment ++ ls.flatMap Lexeme.ofLine) := by
    rw [Lexeme.ofText, split, List.flatMap_cons, Lexeme.ofLine, code]
    rfl
  refine ⟨t, _, first, ?_⟩
  by_cases ends : isLineBreak c = true
  · have split' : lines (c :: cs) = [] :: lines cs := List.splitOnP_append_cons [] cs ends
    rw [← first, Lexeme.ofText, split']
    exact .inr rfl
  · have split' : lines (c :: cs) = (c :: l) :: ls :=
      lines_append_of_unbroken (a := [c]) (by simpa using ends) split
    have slash : c ≠ '/' := by
      rintro rfl
      exact absurd hc (by decide)
    have quote : Quoting.outside.next c = .outside := by
      have other : ∀ d, isBlank d = false → c ≠ d := fun d hd e => by simp [← e, hc] at hd
      simp [Quoting.next, isQuote, other '"' (by decide), other '\'' (by decide)]
    have cut : cutComment (c :: l) = (cutComment l).cons c := by
      rw [cutComment, cutFrom_cons fun _ e => absurd e slash, quote]
      rfl
    have code' : Lexeme.ofCode (c :: (cutComment l).code) = .text (c :: t) :: rest := by
      rw [Lexeme.ofCode_cons_of_none (ofDelimiter?_of_isBlank hc), code]
      rfl
    rw [Lexeme.ofText, split', List.flatMap_cons, Lexeme.ofLine, cut]
    change (Lexeme.ofCode (c :: (cutComment l).code) ++ _) ++ _ = _ ∨ _
    rw [code']
    exact .inl rfl

/-- **A blank in front of a text does not count.** -/
theorem group_ofText_cons {c : Char} (hc : isBlank c = true) (pending cs : List Char) :
    group pending (Lexeme.ofText (c :: cs)) = group pending (Lexeme.ofText cs) := by
  obtain ⟨t, ls, first, added | added⟩ := exists_text_ofText_cons hc cs
  all_goals rw [added, first]
  · have same := sameForm_respace (u := [' ', c]) (v := [' ']) (by simp) (by simp)
      (by simp [hc, isBlank_space]) forall_mem_space pending
    have merged : group (pending ++ [' ', c] ++ t) ls = group (pending ++ [' '] ++ t) ls :=
      (same.append t).group_eq
    simpa only [group, List.append_assoc, List.cons_append, List.nil_append] using merged
  · have same := sameForm_respace (u := [' ', ' ']) (v := [' ']) (by simp) (by simp)
      (by simp [isBlank_space]) forall_mem_space pending
    have merged : group (pending ++ [' ', ' '] ++ t) ls = group (pending ++ [' '] ++ t) ls :=
      (same.append t).group_eq
    simpa only [group, List.append_assoc, List.cons_append, List.nil_append] using merged

theorem group_ofText_blanks_append {pending cs : List Char} : ∀ {u : List Char},
    (∀ c ∈ u, isBlank c = true) →
      group pending (Lexeme.ofText (u ++ cs)) = group pending (Lexeme.ofText cs)
  | [], _ => rfl
  | c :: u, h => by
      rw [List.cons_append, group_ofText_cons (h c List.mem_cons_self),
        group_ofText_blanks_append fun d hd => h d (List.mem_cons_of_mem c hd)]

/-- A line break ends what stands before it, whatever line break it is. -/
theorem exists_ofText_append_break (a : List Char) : ∃ ls, ∀ {s : Char} {b : List Char},
    isLineBreak s = true → Lexeme.ofText (a ++ s :: b) = ls ++ Lexeme.ofText b := by
  obtain ⟨front, append⟩ := exists_lines_append a
  refine ⟨(front ++ [lastLine a]).flatMap Lexeme.ofLine, fun {s b} hs => ?_⟩
  have split : lines (s :: b) = [] :: lines b := List.splitOnP_append_cons [] b hs
  rw [Lexeme.ofText, append split, List.append_nil, List.append_cons, List.flatMap_append]
  rfl

/-- **Which line break stands between two lines does not count**, nor do blanks after it. -/
theorem group_ofText_breaks {s t : Char} (hs : isLineBreak s = true) (ht : isLineBreak t = true)
    (blankU : ∀ c ∈ u, isBlank c = true) (blankV : ∀ c ∈ v, isBlank c = true)
    (pending a b : List Char) :
    group pending (Lexeme.ofText (a ++ s :: (u ++ b)))
      = group pending (Lexeme.ofText (a ++ t :: (v ++ b))) := by
  obtain ⟨ls, ends⟩ := exists_ofText_append_break a
  obtain ⟨done, waiting, grouped⟩ := exists_group_append ls pending
  rw [ends hs, ends ht, grouped, grouped, group_ofText_blanks_append blankU,
    group_ofText_blanks_append blankV]

end ProtoSchema.Source
