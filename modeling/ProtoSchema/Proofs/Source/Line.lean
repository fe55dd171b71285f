import ProtoSchema.Proofs.Source.Phrases

/-!
# Proofs/Source/Line — texts with one statement on each line

A line *makes* a statement if it can be read on its own: no comment, no line break and no empty
body is in it, and its code is that statement and nothing else.  A text of such lines has exactly
their statements, in order (`statementChars_of_lines`).  The kinds of lines a canonical source is
made of are shown to be of this sort: one ended by a semicolon, one that opens a body, a method and
a closing brace.
-/

namespace ProtoSchema.Source

open Text

/-- **The line makes the statement**, whatever lines stand around it. -/
structure Makes (line statement : List Char) : Prop where
  /-- It starts with something that is no blank. -/
  starts : ∃ c cs, line = c :: cs ∧ isBlank c = false
  unslashed : '/' ∉ line
  unbroken : ∀ c ∈ line, isLineBreak c = false
  copied : emptyBody.Copies line
  /-- After blanks it gives its statement, and leaves a space for what follows. -/
  grouped : ∀ {pending}, (∀ c ∈ pending, isBlank c = true) → ∀ rest,
    group pending (Lexeme.ofCode line ++ rest) = statement :: group [' '] rest

/-! ## A text of lines -/

/-- Lines, each with its line feed. -/
def unlines (ls : List (List Char)) : List Char := ls.flatMap (· ++ ['\n'])

theorem unlines_cons (l : List Char) (ls : List (List Char)) :
    unlines (l :: ls) = l ++ '\n' :: unlines ls := by
  simp [unlines]

theorem lines_unlines :
    ∀ {ls : List (List Char)}, (∀ l ∈ ls, ∀ c ∈ l, isLineBreak c = false) →
      lines (unlines ls) = ls ++ [[]]
  | [], _ => rfl
  | l :: ls, h => by
      rw [unlines_cons, lines,
        List.splitOnP_append_cons_of_forall_mem (h l (by simp)) '\n' (by decide)]
      exact congrArg (l :: ·) (lines_unlines fun m hm => h m (List.mem_cons_of_mem _ hm))

theorem cutFrom_of_unpaired : ∀ {cs : List Char}, Unpaired '/' '/' cs → ∀ q,
    cutFrom q cs = ⟨cs, none⟩
  | [], _, _ => rfl
  | c :: cs, h, q => by
      obtain ⟨first, others⟩ := unpaired_cons.1 h
      unfold cutFrom
      split
      · exact absurd rfl (first rfl)
      · rw [cutFrom_of_unpaired others]
        rfl

/-- A line without `//` is code. -/
theorem ofLine_of_unpaired {l : List Char} (h : Unpaired '/' '/' l) :
    Lexeme.ofLine l = Lexeme.ofCode l := by
  rw [Lexeme.ofLine, cutComment, cutFrom_of_unpaired h]
  exact List.append_nil _

theorem emptyBody_of_ne {c : Char} (hc : c ≠ ')') (rest : List Char) :
    emptyBody (c :: rest) = none := by
  unfold emptyBody
  split
  · simp_all
  · rfl

theorem copies_emptyBody {cs : List Char} (h : ')' ∉ cs) : emptyBody.Copies cs :=
  .of_not_mem (fun _ => emptyBody_of_ne) h

section Lines

variable {ls : List (List Char × List Char)}

theorem not_mem_unlines (h : ∀ l ∈ ls, Makes l.1 l.2) : '/' ∉ unlines (ls.map Prod.fst) := by
  intro hm
  obtain ⟨line, hline, hc⟩ := List.mem_flatMap.1 hm
  obtain ⟨l, hl, rfl⟩ := List.mem_map.1 hline
  exact (h l hl).unslashed (by simpa using hc)

theorem copies_unlines : ∀ {ls : List (List Char × List Char)}, (∀ l ∈ ls, Makes l.1 l.2) →
    emptyBody.Copies (unlines (ls.map Prod.fst))
  | [], _ => .nil
  | l :: ls, h => by
      rw [List.map_cons, unlines_cons]
      exact (h l (by simp)).copied.append (.cons (fun _ => emptyBody_of_ne (by decide) _)
        (copies_unlines fun m hm => h m (List.mem_cons_of_mem _ hm)))

/-- There is nothing to tidy in a text of such lines. -/
theorem tidy_unlines (h : ∀ l ∈ ls, Makes l.1 l.2) :
    tidy (unlines (ls.map Prod.fst)) = unlines (ls.map Prod.fst) := by
  have unslashed := not_mem_unlines h
  have starts : trimStart (unlines (ls.map Prod.fst)) = unlines (ls.map Prod.fst) := by
    cases ls with
    | nil => rfl
    | cons l ls =>
      obtain ⟨c, cs, hl, hc⟩ := (h l (by simp)).starts
      rw [List.map_cons, unlines_cons, hl]
      exact trimStart_of_head hc _
  rw [tidy_of_unpaired (unpaired_of_not_mem unslashed) (unpaired_of_not_mem unslashed), starts,
    (copies_unlines h).replaceAll_eq]

/-- The lines are grouped one after the other. -/
theorem group_lines : ∀ {ls : List (List Char × List Char)}, (∀ l ∈ ls, Makes l.1 l.2) →
    ∀ {pending}, (∀ c ∈ pending, isBlank c = true) →
      group pending ((ls.map Prod.fst ++ [[]]).flatMap Lexeme.ofLine) = ls.map Prod.snd
  | [], _, pending, hp => by
      refine emit_of_blanks fun c hc => ?_
      rcases List.mem_append.1 hc with hc | hc
      · exact hp c hc
      · rw [List.mem_singleton.1 hc]
        exact isBlank_space
  | l :: ls, h, pending, hp => by
      have line := h l (by simp)
      rw [List.map_cons, List.cons_append, List.flatMap_cons,
        ofLine_of_unpaired (unpaired_of_not_mem line.unslashed), line.grouped hp, List.map_cons]
      exact congrArg (l.2 :: ·)
        (group_lines (fun m hm => h m (List.mem_cons_of_mem _ hm)) (by simp [isBlank_space]))

/-- **A text of lines that each make a statement has these statements.** -/
theorem statementChars_of_lines (h : ∀ l ∈ ls, Makes l.1 l.2) :
    statementChars (unlines (ls.map Prod.fst)) = ls.map Prod.snd := by
  have unbroken : ∀ l ∈ ls.map Prod.fst, ∀ c ∈ l, isLineBreak c = false := by
    intro line hline
    obtain ⟨l, hl, rfl⟩ := List.mem_map.1 hline
    exact (h l hl).unbroken
  rw [statementChars, tidy_unlines h, Lexeme.ofText, lines_unlines unbroken]
  exact group_lines h (by simp)

end Lines

/-! ## The code of a line -/

theorem Lexeme.ofDelimiter?_eq_none_iff {c : Char} :
    ofDelimiter? c = none ↔ c ≠ '{' ∧ c ≠ '}' ∧ c ≠ ';' := by
  unfold ofDelimiter?
  split_ifs with opening closing stop <;> simp [*]

theorem Lexeme.cases_of_ofDelimiter? {c : Char} {l : Lexeme} (h : ofDelimiter? c = some l) :
    (c = '{' ∧ l = .opening) ∨ (c = '}' ∧ l = .closing) ∨ (c = ';' ∧ l = .stop) := by
  unfold ofDelimiter? at h
  split_ifs at h with opening closing stop
  · exact .inl ⟨opening, (Option.some.inj h).symm⟩
  · exact .inr (.inl ⟨closing, (Option.some.inj h).symm⟩)
  · exact .inr (.inr ⟨stop, (Option.some.inj h).symm⟩)

theorem Lexeme.ofCode_cons_of_some {c : Char} {l : Lexeme} (h : ofDelimiter? c = some l)
    (cs : List Char) : ofCode (c :: cs) = .text [] :: l :: ofCode cs := by
  rw [ofCode, h]

theorem Lexeme.ofCode_cons_of_none {c : Char} (h : ofDelimiter? c = none) (cs : List Char) :
    ofCode (c :: cs) = consChar c (ofCode cs) := by
  rw [ofCode, h]

/-- Code that ends with its only delimiter. -/
theorem ofCode_append_delimiter {d : Char} {l : Lexeme} (hd : Lexeme.ofDelimiter? d = some l) :
    ∀ {cs : List Char}, (∀ c ∈ cs, Lexeme.ofDelimiter? c = none) →
      Lexeme.ofCode (cs ++ [d]) = [.text cs, l, .text []]
  | [], _ => by simp [Lexeme.ofCode, hd]
  | c :: cs, h => by
      have ih := ofCode_append_delimiter hd fun e he => h e (List.mem_cons_of_mem c he)
      rw [List.cons_append, Lexeme.ofCode, h c (by simp), ih]
      rfl

theorem ofDelimiter?_of_isBareChar {c : Char} (h : isBareChar c = true) :
    Lexeme.ofDelimiter? c = none :=
  Lexeme.ofDelimiter?_eq_none_iff.2 ⟨ne_of_isBareChar h (by decide),
    ne_of_isBareChar h (by decide), ne_of_isBareChar h (by decide)⟩

theorem isLineBreak_of_isBareChar {c : Char} (h : isBareChar c = true) :
    isLineBreak c = false := by
  refine Bool.eq_false_iff.2 fun hb => ?_
  have := isBlank_of_isBareChar h
  simp [isBlank_of_isLineBreak hb] at this

/-- What the characters of a statement have to be so that its line can be read on its own. -/
structure Inline (cs : List Char) : Prop where
  starts : ∃ c rest, cs = c :: rest ∧ isBlank c = false
  unslashed : '/' ∉ cs
  unbroken : ∀ c ∈ cs, isLineBreak c = false
  undelimited : ∀ c ∈ cs, Lexeme.ofDelimiter? c = none

theorem isBlank_of_mem_append_space {pending : List Char} (h : ∀ c ∈ pending, isBlank c = true) :
    ∀ c ∈ pending ++ [' '], isBlank c = true := fun c hc => by
  rcases List.mem_append.1 hc with hc | hc
  · exact h c hc
  · rw [List.mem_singleton.1 hc]
    exact isBlank_space

/-- The blanks that wait in front of a line do not count. -/
theorem normalize_pending {pending : List Char} (h : ∀ c ∈ pending, isBlank c = true)
    (cs : List Char) : normalize (pending ++ ' ' :: cs) = normalize cs := by
  rw [← normalize_blanks_append (isBlank_of_mem_append_space h) cs, List.append_assoc]
  rfl

/-- **A statement in normal form, and its semicolon.** -/
theorem makes_ended {cs : List Char} (h : Inline cs) (normal : normalize cs = cs)
    (copied : emptyBody.Copies (cs ++ [';'])) : Makes (cs ++ [';']) cs where
  starts := by
    obtain ⟨c, rest, rfl, hc⟩ := h.starts
    exact ⟨c, rest ++ [';'], rfl, hc⟩
  unslashed := by simp [h.unslashed]
  unbroken c hc := by
    rcases List.mem_append.1 hc with hc | hc
    · exact h.unbroken c hc
    · rw [List.mem_singleton.1 hc]
      decide
  copied := copied
  grouped {pending} hp rest := by
    obtain ⟨c, cs, rfl, -⟩ := h.starts
    have text := (normalize_pending hp (c :: cs)).trans normal
    rw [ofCode_append_delimiter rfl h.undelimited]
    change emit (pending ++ ' ' :: c :: cs) ++ group [' '] rest = _
    rw [emit_of_normalize text (by simp)]
    rfl

/-- **A statement and the brace it opens.** -/
theorem makes_opening {cs statement : List Char} (h : Inline cs) (ne : statement ≠ [])
    (normal : normalize (cs ++ [' ', ' ', '{']) = statement) (copied : ')' ∉ cs) :
    Makes (cs ++ [' ', '{']) statement where
  starts := by
    obtain ⟨c, rest, rfl, hc⟩ := h.starts
    exact ⟨c, rest ++ [' ', '{'], rfl, hc⟩
  unslashed := by simp [h.unslashed]
  unbroken c hc := by
    rcases List.mem_append.1 hc with hc | hc
    · exact h.unbroken c hc
    · have : ∀ d ∈ [' ', '{'], isLineBreak d = false := List.all_iff_forall_prop.1 rfl
      exact this c hc
  copied := copies_emptyBody (by simp [copied])
  grouped {pending} hp rest := by
    have text : normalize ((pending ++ ' ' :: (cs ++ [' '])) ++ [' ', '{']) = statement := by
      rw [List.append_assoc, List.cons_append, normalize_pending hp, List.append_assoc]
      exact normal
    have code : Lexeme.ofCode (cs ++ [' ', '{']) = [.text (cs ++ [' ']), .opening, .text []] := by
      rw [← ofCode_append_delimiter (d := '{') rfl fun c hc => ?_, List.append_assoc]
      · rfl
      · rcases List.mem_append.1 hc with hc | hc
        · exact h.undelimited c hc
        · rw [List.mem_singleton.1 hc]
          rfl
    rw [code]
    change emit ((pending ++ ' ' :: (cs ++ [' '])) ++ [' ', '{']) ++ group [' '] rest = _
    rw [emit_of_normalize text ne]
    rfl

/-- **A closing brace.** -/
theorem makes_closing : Makes ['}'] ['}'] where
  starts := ⟨'}', [], rfl, by decide⟩
  unslashed := by decide
  unbroken := List.all_iff_forall_prop.1 rfl
  copied := copies_emptyBody (by decide)
  grouped {pending} hp rest := by
    change emit (pending ++ [' ']) ++ emit ['}'] ++ group [' '] rest = _
    rw [emit_of_blanks (isBlank_of_mem_append_space hp)]
    rfl

/-! ## Lines of parts -/

theorem inline_unwords {w : List Char} {ws : List (List Char)} (h : ∀ v ∈ w :: ws, IsPart v) :
    Inline (unwords (w :: ws)) where
  starts := by
    obtain ⟨ne, blank⟩ := (h w (by simp)).isWord
    obtain ⟨c, cs, rfl⟩ := List.exists_cons_of_ne_nil ne
    cases ws with
    | nil => exact ⟨c, cs, by simp [unwords], blank c (by simp)⟩
    | cons v ws => exact ⟨c, _, unwords_cons (by simp), blank c (by simp)⟩
  unslashed := not_mem_unwords_of_isPart (by decide) (by decide) (by decide) h
  unbroken := forall_mem_unwords_of_isPart (fun _ => isLineBreak_of_isBareChar) (by decide)
    (by decide) h
  undelimited := forall_mem_unwords_of_isPart (fun _ => ofDelimiter?_of_isBareChar) rfl rfl h

/-- **Parts with a semicolon after them make a statement of these parts.** -/
theorem makes_unwords {w : List Char} {ws : List (List Char)} (h : ∀ v ∈ w :: ws, IsPart v) :
    Makes (unwords (w :: ws) ++ [';']) (unwords (w :: ws)) :=
  makes_ended (inline_unwords h) (normalize_unwords h)
    (copies_emptyBody (by simp [closing_not_mem_unwords h]))

/-- **Parts with an opening brace after them make a statement that keeps the brace.** -/
theorem makes_unwords_opening {w : List Char} {ws : List (List Char)}
    (h : ∀ v ∈ w :: ws, IsPart v) :
    Makes (unwords (w :: ws) ++ [' ', '{']) (unwords (w :: ws) ++ [' ', '{']) :=
  makes_opening (inline_unwords h) (by simp) (normalize_unwords_opening (by simp) h)
    (closing_not_mem_unwords h)

end ProtoSchema.Source
