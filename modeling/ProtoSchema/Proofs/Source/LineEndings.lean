import ProtoSchema.Proofs.Source.Spacing

/-!
# Proofs/Source/LineEndings — texts with a carriage return in front of every line feed

A carriage return in front of one line feed changes no statement (`statementChars_return`).  Each
step from a text to its lines leaves two texts that differ in this either equal or different in it
only, and between two lines it is no more than one break with a blank after it.  So carriage returns
in front of all line feeds change none (`statements_withReturns`).
-/

namespace ProtoSchema.Source

open Text Text.Letterwise

variable {u v a b cs ds : List Char}

/-! ## Block comments -/

/-- Stretches of blanks can be exchanged in block comments. -/
theorem exchanges_blockComment (hu : u ≠ []) (hv : v ≠ []) (blankU : ∀ c ∈ u, isBlank c = true)
    (blankV : ∀ c ∈ v, isBlank c = true) : Exchanges IsBlockComment u v := by
  have star : '*' ∉ u ∧ '*' ∉ v :=
    ⟨not_mem_of_blank blankU (by decide), not_mem_of_blank blankV (by decide)⟩
  have slash : '/' ∉ u ∧ '/' ∉ v :=
    ⟨not_mem_of_blank blankU (by decide), not_mem_of_blank blankV (by decide)⟩
  refine .of_between hu hv fun p hp => ?_
  obtain ⟨m, rfl⟩ := hp.exists_eq
  refine ⟨['/', '*'], m, ['*', '/'], by simp, by simp, by simp [star, slash], rfl, fun s t => ?_⟩
  rw [isBlockComment_iff, isBlockComment_iff, List.append_assoc _ t, List.append_assoc _ t,
    unpaired_append_stretch hu star.1 slash.1, unpaired_append_stretch hv star.2 slash.2]

/-! ## Empty bodies -/

/-- Between its braces an empty body has blanks. -/
theorem isEmptyBody_iff {gap m : List Char} (hg : ∀ c ∈ gap, isGap c = true) :
    IsEmptyBody (')' :: gap ++ ['{'] ++ (m ++ ['}'])) ↔ ∀ c ∈ m, isBlank c = true := by
  constructor
  · rintro ⟨gap', inner, hg', hi, same⟩
    have same : gap ++ '{' :: (m ++ ['}']) = gap' ++ '{' :: (inner ++ ['}']) := by
      simpa using same
    have brace : isGap '{' = false := by decide
    obtain rfl : gap = gap' := by
      have front := congrArg (List.takeWhile isGap) same
      rwa [takeWhile_append_cons hg brace, takeWhile_append_cons hg' brace] at front
    have inside := (List.cons.inj (List.append_cancel_left same)).2
    rwa [List.append_cancel_right inside]
  · exact fun hm => ⟨gap, m, hg, hm, by simp⟩

/-- Stretches of blanks that leave the line can be exchanged in empty bodies. -/
theorem exchanges_emptyBody (hu : u ≠ []) (hv : v ≠ [])
    (blankU : ∀ c ∈ u, isBlank c = true ∧ isGap c = false)
    (blankV : ∀ c ∈ v, isBlank c = true ∧ isGap c = false) : Exchanges IsEmptyBody u v := by
  refine .of_between hu hv ?_
  rintro _ ⟨gap, m, hg, -, rfl⟩
  refine ⟨')' :: gap ++ ['{'], m, ['}'], by simp, by simp, fun c hc => ?_, by simp,
    fun s t => ?_⟩
  · have outside : isGap c = true ∨ isBlank c = false := by
      simp only [List.cons_append, List.mem_cons, List.mem_append, List.not_mem_nil,
        or_false] at hc
      rcases hc with rfl | (hc | rfl) | rfl
      · exact .inr (by decide)
      · exact .inl (hg c hc)
      · exact .inr (by decide)
      · exact .inr (by decide)
    have foreign : ∀ {w : List Char}, (∀ d ∈ w, isBlank d = true ∧ isGap d = false) → c ∉ w :=
      fun hw mem => by
        obtain ⟨blank, gap⟩ := hw c mem
        rcases outside with h | h
        · exact Bool.false_ne_true (gap.symm.trans h)
        · exact Bool.false_ne_true (h.symm.trans blank)
    exact ⟨foreign blankU, foreign blankV⟩
  · have blank : ∀ c ∈ u, isBlank c = true := fun c hc => (blankU c hc).1
    have blank' : ∀ c ∈ v, isBlank c = true := fun c hc => (blankV c hc).1
    rw [isEmptyBody_iff hg, isEmptyBody_iff hg]
    simp only [List.forall_mem_append, iff_true_intro blank, iff_true_intro blank']

/-! ## One line end -/

theorem trimStart_blanks_append (blank : ∀ c ∈ u, isBlank c = true) (cs : List Char) :
    trimStart (u ++ cs) = trimStart cs := List.dropWhile_append_of_pos blank

theorem differ_trimStart (blankU : ∀ c ∈ u, isBlank c = true) (blankV : ∀ c ∈ v, isBlank c = true)
    (d : Differ u v cs ds) : Differ u v (trimStart cs) (trimStart ds) := by
  rcases d with rfl | ⟨a, b, rfl, rfl⟩
  · exact .inl rfl
  · have trimmed : ∀ w, trimStart (a ++ w ++ b)
        = if (trimStart a).isEmpty then trimStart (w ++ b) else trimStart a ++ w ++ b := fun w => by
      rw [List.append_assoc, trimStart, List.dropWhile_append, ← List.append_assoc]
      rfl
    rw [trimmed, trimmed]
    split_ifs
    · exact .inl (by rw [trimStart_blanks_append blankU, trimStart_blanks_append blankV])
    · exact .inr ⟨trimStart a, b, rfl, rfl⟩

/-- Dropping a comment that leads the text leaves the line end as it is, or takes the carriage
return with the comment. -/
theorem differ_dropLeadingComment (d : Differ ['\r', '\n'] ['\n'] cs ds) :
    Differ ['\r', '\n'] ['\n'] (dropLeadingComment cs) (dropLeadingComment ds) := by
  rcases d with rfl | ⟨a, b, rfl, rfl⟩
  · exact .inl rfl
  · by_cases mark : ['/', '/'] <+: a
    · obtain ⟨a, rfl⟩ := mark
      have dropped : ∀ w, dropLeadingComment (['/', '/'] ++ a ++ w ++ b)
          = if (a.dropWhile (· ≠ '\n')).isEmpty then (w ++ b).dropWhile (· ≠ '\n')
            else a.dropWhile (· ≠ '\n') ++ w ++ b := fun w => by
        rw [List.append_assoc, List.append_assoc]
        change (a ++ (w ++ b)).dropWhile (· ≠ '\n') = _
        rw [List.dropWhile_append, List.append_assoc]
      rw [dropped, dropped]
      split_ifs
      · exact .inl rfl
      · exact .inr ⟨_, b, rfl, rfl⟩
    · have kept : ∀ {c : Char} (w : List Char), c ≠ '/' →
          dropLeadingComment (a ++ c :: w ++ b) = a ++ c :: w ++ b := fun {c} w hc => by
        refine dropLeadingComment_of_unmarked fun start => mark ?_
        rw [List.append_assoc] at start
        exact prefix_of_prefix_append_cons (by simp [hc]) start
      rw [kept ['\n'] (by decide), kept [] (by decide)]
      exact .inr ⟨a, b, rfl, rfl⟩

/-- **Texts that differ in one line end do so when they are tidied**, or have become the same. -/
theorem differ_tidy (d : Differ ['\r', '\n'] ['\n'] cs ds) :
    Differ ['\r', '\n'] ['\n'] (tidy cs) (tidy ds) := by
  have blankU : ∀ c ∈ ['\r', '\n'], isBlank c = true := List.all_iff_forall_prop.1 rfl
  have blankV : ∀ c ∈ ['\n'], isBlank c = true := List.all_iff_forall_prop.1 rfl
  have bodies : Exchanges IsEmptyBody ['\r', '\n'] ['\n'] :=
    exchanges_emptyBody (by simp) (by simp) (by decide) (by decide)
  have erased := d.replaceAll blockComment_finds
    (exchanges_blockComment (by simp) (by simp) blankU blankV)
  have trimmed := differ_trimStart blankU blankV erased
  exact (differ_dropLeadingComment trimmed).replaceAll emptyBody_finds bodies

/-- **A carriage return in front of a line feed changes no statement.** -/
theorem statementChars_return (a b : List Char) :
    statementChars (a ++ ['\r', '\n'] ++ b) = statementChars (a ++ ['\n'] ++ b) := by
  rcases differ_tidy (.inr ⟨a, b, rfl, rfl⟩) with same | ⟨x, y, first, second⟩
  · rw [statementChars, same, statementChars]
  · rw [statementChars, statementChars, first, second, List.append_assoc, List.append_assoc]
    exact group_ofText_breaks (u := ['\n']) (v := []) (by decide) (by decide) (by decide)
      (by simp) [] x y

/-! ## All line ends -/

/-- The text with a carriage return in front of every line feed. -/
def withReturns (cs : List Char) : List Char :=
  cs.flatMap fun c => if c = '\n' then ['\r', '\n'] else [c]

/-- The line ends of a text are changed one after the other, whatever stands before it. -/
theorem statementChars_append_withReturns :
    ∀ a cs : List Char, statementChars (a ++ withReturns cs) = statementChars (a ++ cs)
  | _, [] => rfl
  | a, c :: cs => by
      by_cases feed : c = '\n'
      · subst feed
        calc statementChars (a ++ withReturns ('\n' :: cs))
            = statementChars (a ++ ['\r', '\n'] ++ withReturns cs) := by
              rw [List.append_assoc]
              rfl
          _ = statementChars (a ++ ['\r', '\n'] ++ cs) :=
              statementChars_append_withReturns _ cs
          _ = statementChars (a ++ '\n' :: cs) := by
              rw [statementChars_return, List.append_assoc, List.singleton_append]
      · have kept : withReturns (c :: cs) = c :: withReturns cs := by simp [withReturns, feed]
        rw [kept, List.append_cons, statementChars_append_withReturns, ← List.append_cons]

/-- **Line endings do not matter**: a text whose lines end in carriage return and line feed has the
statements of the text with line feeds only, whatever comments and quotes are in it. -/
theorem statements_withReturns (text : String) :
    statements (String.ofList (withReturns text.toList)) = statements text := by
  rw [statements, String.toList_ofList]
  exact congrArg _ (statementChars_append_withReturns [] text.toList)

end ProtoSchema.Source
