import ProtoSchema.Proofs.Source.Layout

/-!
# Proofs/Source/Pieces — texts that are read piece by piece

A piece of a text without comments gives its statements whatever text follows it, if it ends with a
delimiter and no empty body goes on behind it.  So the statements of a text are those of its pieces
(`Gives.append`).  A body behind a closing parenthesis is one piece with what stands before it: if
it is empty and opens on the line of the parenthesis it ends a statement (`gives_emptyBody`), and
else its brace is kept (`gives_body`).
-/

namespace ProtoSchema.Source

open Text

variable {a b cs u : List Char} {statements more : List (List Char)}

/-! ## Empty bodies -/

/-- No empty body goes over a closing parenthesis. -/
theorem replaceAll_emptyBody_append_closing (a b : List Char) :
    replaceAll emptyBody (a ++ ')' :: b)
      = replaceAll emptyBody a ++ replaceAll emptyBody (')' :: b) := by
  refine emptyBody_finds.replaceAll_append fun s t hs ht _ start body => ?_
  obtain ⟨d, t, rfl⟩ := List.exists_cons_of_ne_nil ht
  obtain ⟨rfl, -⟩ := List.cons_prefix_cons.1 start
  obtain ⟨e, s, rfl⟩ := List.exists_cons_of_ne_nil hs
  obtain rfl : e = ')' := Option.some.inj (head?_of_isEmptyBody _ body)
  exact body.not_mem_tail (by simp)

/-! ## Pieces -/

/-- **The piece gives these statements**, whatever text follows it. -/
def Gives (cs : List Char) (statements : List (List Char)) : Prop :=
  ∀ rest, gather [] (replaceAll emptyBody (cs ++ rest))
    = statements ++ gather [] (replaceAll emptyBody rest)

theorem Gives.nil : Gives [] [] := fun _ => rfl

theorem Gives.append (h : Gives a statements) (h' : Gives b more) :
    Gives (a ++ b) (statements ++ more) := fun rest => by
  rw [List.append_assoc, h, h', List.append_assoc]

theorem Gives.flatMap {α : Type} {f : α → List Char} {g : α → List (List Char)} :
    ∀ {xs : List α}, (∀ x ∈ xs, Gives (f x) (g x)) → Gives (xs.flatMap f) (xs.flatMap g)
  | [], _ => .nil
  | x :: xs, h => by
      obtain ⟨first, others⟩ := List.forall_mem_cons.1 h
      exact first.append (Gives.flatMap others)

/-- **A text of pieces has their statements.** -/
theorem Gives.statementChars_eq (h : Gives cs statements) (line : Unpaired '/' '/' cs)
    (block : Unpaired '/' '*' cs) : statementChars cs = statements := by
  have whole := h []
  rw [List.append_nil, replaceAll_nil] at whole
  rw [statementChars_of_unpaired line block, whole]
  exact List.append_nil statements

section Delimiters

theorem gather_append_delimiter {d : Char} {l : Lexeme} (h : Lexeme.ofDelimiter? d = some l)
    (free : ∀ c ∈ a, Lexeme.ofDelimiter? c = none) (rest : List Char) :
    gather [] (a ++ d :: rest) = group a [l] ++ gather [] rest := by
  rw [gather_append_of_none _ free, List.nil_append, gather_cons_of_some h]

theorem group_nil : group [] [] = [] := emit_of_blanks (by simp)

/-- Text with a semicolon after it. -/
theorem gives_ended (free : ∀ c ∈ a, Lexeme.ofDelimiter? c = none) :
    Gives (a ++ [';']) (emit a) := fun rest => by
  have closing : '}' ∉ a := fun mem => nomatch free _ mem
  have ended := replaceAll_emptyBody_append_cons (d := ';') (by decide) (by decide) a rest
  rw [replaceAll_emptyBody_of_not_mem closing] at ended
  rw [List.append_assoc, List.singleton_append, ended, gather_append_delimiter rfl free,
    group, group_nil, List.append_nil]

/-- Text without parentheses, and the brace that it opens. -/
theorem gives_opening (free : ∀ c ∈ a, Lexeme.ofDelimiter? c = none) (closing : ')' ∉ a) :
    Gives (a ++ ['{']) (emit (a ++ [' ', '{'])) := fun rest => by
  have copied : emptyBody.Copies (a ++ ['{']) := copies_emptyBody (by simp [closing])
  rw [copied, List.append_assoc, List.singleton_append, gather_append_delimiter rfl free,
    group, group_nil, List.append_nil]

theorem gives_closing (blank : ∀ c ∈ u, isBlank c = true) : Gives (u ++ ['}']) [['}']] :=
  fun rest => by
    have copied : emptyBody.Copies (u ++ ['}']) :=
      copies_emptyBody (by simp [not_mem_of_blank blank (by decide : isBlank ')' = false)])
    have brace : emit ['}'] = [['}']] := by decide
    rw [copied, List.append_assoc, List.singleton_append, gather_append_delimiter rfl fun c hc =>
      ofDelimiter?_of_isBlank (blank c hc), group, group_nil, emit_of_blanks blank, brace]
    rfl

theorem gives_blanks (blank : ∀ c ∈ u, isBlank c = true) : Gives u [] := fun rest => by
  have same := sameForm_blanks_append blank []
  rw [List.append_nil] at same
  rw [copies_emptyBody (not_mem_of_blank blank (by decide)), gather_append_of_none _ fun c hc =>
    ofDelimiter?_of_isBlank (blank c hc), List.nil_append, same.gather_eq]
  rfl

/-! ## Bodies behind a parenthesis -/

/-- **An empty body on the line of the parenthesis** ends a statement. -/
theorem gives_emptyBody {gap inner : List Char} (free : ∀ c ∈ a, Lexeme.ofDelimiter? c = none)
    (hg : ∀ c ∈ gap, isGap c = true) (hi : ∀ c ∈ inner, isBlank c = true) :
    Gives (a ++ ')' :: (gap ++ '{' :: (inner ++ ['}']))) (emit (a ++ [')'])) := fun rest => by
  have closing : '}' ∉ a := fun mem => nomatch free _ mem
  have body : IsEmptyBody (')' :: (gap ++ '{' :: (inner ++ ['}']))) := ⟨gap, inner, hg, hi, rfl⟩
  have free' : ∀ c ∈ a ++ [')'], Lexeme.ofDelimiter? c = none :=
    List.forall_mem_append.2 ⟨free, by simp [Lexeme.ofDelimiter?]⟩
  have replaced : replaceAll emptyBody (a ++ ')' :: (gap ++ '{' :: (inner ++ ['}'])) ++ rest)
      = a ++ [')'] ++ ';' :: replaceAll emptyBody rest := by
    rw [List.append_assoc, List.cons_append, replaceAll_emptyBody_append_closing,
      replaceAll_emptyBody_of_not_mem closing, ← List.cons_append,
      emptyBody_finds.replaceAll_phrase body]
    simp
  rw [replaced, gather_append_delimiter rfl free', group, group_nil, List.append_nil]

/-- **Any other body** keeps its brace, and gives the statements in it. -/
theorem gives_body (free : ∀ c ∈ a, Lexeme.ofDelimiter? c = none)
    (blank : ∀ c ∈ u, isBlank c = true) (body : Gives b statements)
    (other : ∀ rest, emptyBody (')' :: (u ++ '{' :: (b ++ rest))) = none) :
    Gives (a ++ ')' :: (u ++ '{' :: b)) (emit (a ++ ')' :: u ++ [' ', '{']) ++ statements) :=
  fun rest => by
    have closing : '}' ∉ a := fun mem => nomatch free _ mem
    have free' : ∀ c ∈ a ++ ')' :: u, Lexeme.ofDelimiter? c = none :=
      List.forall_mem_append.2 ⟨free, List.forall_mem_cons.2 ⟨rfl, fun c hc =>
        ofDelimiter?_of_isBlank (blank c hc)⟩⟩
    have copied : emptyBody.Copies (u ++ ['{']) :=
      copies_emptyBody (by simp [not_mem_of_blank blank (by decide : isBlank ')' = false)])
    have kept : replaceAll emptyBody (a ++ ')' :: (u ++ '{' :: b) ++ rest)
        = a ++ ')' :: u ++ '{' :: replaceAll emptyBody (b ++ rest) := by
      have inner := copied (b ++ rest)
      simp only [List.append_assoc, List.cons_append, List.nil_append] at inner ⊢
      rw [replaceAll_emptyBody_append_closing, replaceAll_emptyBody_of_not_mem closing,
        replaceAll_cons_of_none (other rest), inner]
    rw [kept, gather_append_delimiter rfl free', group, group_nil, List.append_nil, body,
      ← List.append_assoc]

/-- The rule for empty bodies fits where the brace opens on the line and a closing one is next. -/
theorem isGap_and_closes_of_emptyBody (blank : ∀ c ∈ u, isBlank c = true)
    (fits : emptyBody (')' :: (u ++ '{' :: b)) ≠ none) :
    (∀ c ∈ u, isGap c = true)
      ∧ ∃ inner rest, (∀ c ∈ inner, isBlank c = true) ∧ b = inner ++ '}' :: rest := by
  obtain ⟨⟨out, length⟩, fits⟩ := Option.ne_none_iff_exists'.1 fits
  obtain ⟨-, _, rest, ⟨gap, inner, hg, hi, rfl⟩, split, -⟩ := emptyBody_finds.fits.1 fits
  have split : u ++ '{' :: b = gap ++ '{' :: (inner ++ '}' :: rest) := by
    simpa using split
  have brace : isBlank '{' = false := by decide
  obtain rfl : u = gap := by
    have front := congrArg (List.takeWhile isBlank) split
    rwa [takeWhile_append_cons blank brace,
      takeWhile_append_cons (fun c hc => isBlank_of_isGap (hg c hc)) brace] at front
  exact ⟨hg, inner, rest, hi, (List.cons.inj (List.append_cancel_left split)).2⟩

/-- A body that opens on a later line is not taken for an empty one. -/
theorem emptyBody_of_break (blank : ∀ c ∈ u, isBlank c = true) (later : ∃ c ∈ u, isGap c = false)
    (rest : List Char) : emptyBody (')' :: (u ++ '{' :: rest)) = none := by
  by_contra fits
  obtain ⟨c, hc, other⟩ := later
  have gap := (isGap_and_closes_of_emptyBody blank fits).1 c hc
  exact Bool.false_ne_true (other.symm.trans gap)

/-- Nor is a body with text in it. -/
theorem emptyBody_of_text {c : Char} {inner : List Char} (blank : ∀ c ∈ u, isBlank c = true)
    (hi : ∀ d ∈ inner, isBlank d = true) (hc : isBlank c = false) (ne : c ≠ '}')
    (rest : List Char) : emptyBody (')' :: (u ++ '{' :: (inner ++ c :: rest))) = none := by
  by_contra fits
  obtain ⟨-, inner', rest', hi', split⟩ := isGap_and_closes_of_emptyBody blank fits
  obtain rfl : inner = inner' := by
    have front := congrArg (List.takeWhile isBlank) split
    rwa [takeWhile_append_cons hi hc, takeWhile_append_cons hi' (by decide)] at front
  exact ne (List.cons.inj (List.append_cancel_left split)).1

end Delimiters

end ProtoSchema.Source
