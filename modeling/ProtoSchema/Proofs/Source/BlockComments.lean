import ProtoSchema.Proofs.Source.Phrases

/-!
# Proofs/Source/BlockComments — block comments are erased, and nothing else

A comment that is put into a text is erased again, whatever it says and wherever it stands
(`eraseBlockComments_append_comment`).  So a text has the statements of its segments between the
comments, put together (`statements_withComments`).  A slash before a comment or a star after it
opens no other one.
-/

namespace ProtoSchema.Source

open Text

/-! ## Texts and their comments -/

/-- **A text with block comments in it**: its first segment, and each comment's body with the
segment that follows the comment. -/
def withComments (first : String) : List (String × String) → String
  | [] => first
  | (body, segment) :: rest => first ++ "/*" ++ body ++ "*/" ++ withComments segment rest

/-- The segments of such a text put together. -/
def withoutComments (first : String) (rest : List (String × String)) : String :=
  String.join (first :: rest.map Prod.snd)

theorem withComments_cons_toList (first body segment : String) (rest : List (String × String)) :
    (withComments first ((body, segment) :: rest)).toList
      = first.toList ++ (['/', '*'] ++ (body.toList ++ ['*', '/'])
        ++ (withComments segment rest).toList) := by
  simp [withComments]

theorem withoutComments_cons_toList (first body segment : String)
    (rest : List (String × String)) :
    (withoutComments first ((body, segment) :: rest)).toList
      = first.toList ++ (withoutComments segment rest).toList := by
  simp [withoutComments]

/-! ## One comment -/

/-- No block comment starts in a text without `/*` and ends behind it, in a text that starts with
a slash. -/
theorem not_isBlockComment_across {a s t cs : List Char} (free : Unpaired '/' '*' a)
    (hs : s ≠ []) (ht : t ≠ []) (part : s <:+ a) (start : t <+: '/' :: cs) :
    ¬ IsBlockComment (s ++ t) := by
  rintro ⟨p, split, -⟩
  obtain ⟨c, s, rfl⟩ := List.exists_cons_of_ne_nil hs
  obtain ⟨d, t, rfl⟩ := List.exists_cons_of_ne_nil ht
  obtain ⟨rfl, -⟩ := List.cons_prefix_cons.1 start
  obtain ⟨rfl, second⟩ := List.cons.inj split
  cases s with
  | nil => exact absurd (List.cons.inj second).1 (by decide)
  | cons e s =>
    obtain ⟨rfl, -⟩ := List.cons.inj second
    exact unpaired_iff.1 free (List.IsInfix.trans ⟨[], s, rfl⟩ part.isInfix)

/-- **A comment is erased**, and nothing of the text before it. -/
theorem eraseBlockComments_append_comment {a body : List Char} (free : Unpaired '/' '*' a)
    (closed : Unpaired '*' '/' body) (rest : List Char) :
    eraseBlockComments (a ++ (['/', '*'] ++ (body ++ ['*', '/']) ++ rest))
      = a ++ eraseBlockComments rest := by
  have comment : IsBlockComment (['/', '*'] ++ (body ++ ['*', '/'])) :=
    isBlockComment_iff.2 (closed.append (List.isChain_singleton _) fun _ => by simp)
  have erased : eraseBlockComments (['/', '*'] ++ (body ++ ['*', '/']) ++ rest)
      = eraseBlockComments rest := blockComment_finds.replaceAll_phrase comment rest
  have apart := blockComment_finds.replaceAll_append
    (b := ['/', '*'] ++ (body ++ ['*', '/']) ++ rest) fun s t hs ht part start =>
      not_isBlockComment_across free hs ht part start
  rw [eraseBlockComments, apart, ← eraseBlockComments, ← eraseBlockComments,
    eraseBlockComments_of_unpaired free, erased]

/-! ## All comments -/

theorem eraseBlockComments_withComments : ∀ {rest : List (String × String)} {first : String},
    Unpaired '/' '*' (withoutComments first rest).toList →
      (∀ c ∈ rest, Unpaired '*' '/' c.1.toList) →
        eraseBlockComments (withComments first rest).toList = (withoutComments first rest).toList
  | [], first, free, _ => by
      have alone : withoutComments first [] = first := by simp [withoutComments]
      rw [alone] at free ⊢
      exact eraseBlockComments_of_unpaired free
  | (body, segment) :: rest, first, free, closed => by
      rw [withoutComments_cons_toList] at free ⊢
      have behind := eraseBlockComments_withComments
        (free.of_infix (List.suffix_append _ _).isInfix)
        fun c hc => closed c (List.mem_cons_of_mem _ hc)
      rw [withComments_cons_toList, eraseBlockComments_append_comment
        (free.of_infix (List.prefix_append _ _).isInfix) (closed _ List.mem_cons_self), behind]

/-- **Block comments are not read**: a text has the statements of its segments put together, if
these have no `/*` in them and no comment has `*/` in its body. -/
theorem statements_withComments {first : String} {rest : List (String × String)}
    (free : ¬ "/*".toList <:+: (withoutComments first rest).toList)
    (closed : ∀ c ∈ rest, ¬ "*/".toList <:+: c.1.toList) :
    statements (withComments first rest) = statements (withoutComments first rest) := by
  have free : Unpaired '/' '*' (withoutComments first rest).toList := unpaired_iff.2 free
  have erased := eraseBlockComments_withComments free fun c hc => unpaired_iff.2 (closed c hc)
  have whole := eraseBlockComments_of_unpaired free
  rw [statements, statements, statementChars, statementChars, tidy, tidy, erased, whole]

/-- Slashes and stars stand on both sides of the comments, one of which holds quotes, line breaks
and `//`. -/
theorem statements_of_seams :
    ¬ "/*".toList <:+: (withoutComments "rpc A/" [("/ \"// '\n;*", "(B)*/"), ("", "/ {}")]).toList
    ∧ (∀ c ∈ [("/ \"// '\n;*", "(B)*/"), ("", "/ {}")], ¬ "*/".toList <:+: c.1.toList)
    ∧ statements "rpc A//*/ \"// '\n;**/(B)*//**// {}" = statements "rpc A/(B)*// {}" := by
  have apart : withComments "rpc A/" [("/ \"// '\n;*", "(B)*/"), ("", "/ {}")]
      = "rpc A//*/ \"// '\n;**/(B)*//**// {}" := by simp [withComments]
  have whole : withoutComments "rpc A/" [("/ \"// '\n;*", "(B)*/"), ("", "/ {}")]
      = "rpc A/(B)*// {}" := by simp [withoutComments]
  have free : ¬ "/*".toList <:+:
      (withoutComments "rpc A/" [("/ \"// '\n;*", "(B)*/"), ("", "/ {}")]).toList := by
    rw [whole]
    exact unpaired_iff.1 (by decide)
  have closed : ∀ c ∈ [("/ \"// '\n;*", "(B)*/"), ("", "/ {}")],
      ¬ "*/".toList <:+: c.1.toList := by
    simp only [List.forall_mem_cons]
    exact ⟨unpaired_iff.1 (by decide), unpaired_iff.1 (by decide), by simp⟩
  refine ⟨free, closed, ?_⟩
  rw [← apart, ← whole]
  exact statements_withComments free closed

end ProtoSchema.Source
