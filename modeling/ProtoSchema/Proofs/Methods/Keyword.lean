import ProtoSchema.Proofs.Document.Statements
import ProtoSchema.Proofs.Methods.Spelling

/-!
# Proofs/Methods/Keyword — statements that start with a keyword

A text that starts with a word and a gap makes a statement that starts with this word, whatever
follows, and so a keyword there decides what the statement is about (`ofText_keyword_ended`,
`ofText_keyword_opening`).
-/

namespace ProtoSchema

open Text Source

/-! ## The normal form -/

section Normal

variable {k rest : List Char}

/-- The words after the keyword. -/
def wordsAfter (rest : List Char) : List (List Char) :=
  words (replaceAll returnsBetween (spaceEquals rest))

/-- **The keyword is the first word.** -/
theorem words_keyword (hk : IsLiteral k) (gap : Gap) (rest : List Char) :
    words (replaceAll returnsBetween (spaceEquals (k ++ gap.chars ++ rest)))
      = k :: wordsAfter rest := by
  have equals : '=' ∉ k ++ gap.chars := by
    simp [hk.isBare.not_mem (d := '=') (by decide),
      not_mem_of_blank gap.blank (d := '=') (by decide)]
  have closing : ')' ∉ k ++ gap.chars := by
    simp [closing_not_mem hk, not_mem_of_blank gap.blank (d := ')') (by decide)]
  rw [spaceEquals_append, spaceEquals_of_not_mem equals, copies_returnsBetween closing,
    words_append_blanks gap.ne_nil gap.blank, words_of_isWord hk.isBare.isWord]
  rfl

theorem normalize_keyword (hk : IsLiteral k) (gap : Gap) (rest : List Char) :
    normalize (k ++ gap.chars ++ rest) = unwords (k :: wordsAfter rest) := by
  rw [← words_keyword hk gap]
  rfl

/-- With the brace that it opens, the statement goes on as it does without. -/
theorem normalize_keyword_opening (hk : IsLiteral k) (gap : Gap) (rest : List Char) :
    normalize (k ++ gap.chars ++ rest ++ [' ', '{'])
      = unwords (k :: wordsAfter rest) ++ [' ', '{'] := by
  rw [normalize_append_brace, words_keyword hk gap]
  exact unwords_append_singleton ['{'] (by simp)

/-- Blanks in front of the keyword do not count. -/
theorem emit_keyword (hk : IsLiteral k) (lead : Blanks) (gap : Gap) (rest : List Char) :
    emit (lead.chars ++ (k ++ gap.chars ++ rest)) = [normalize (k ++ gap.chars ++ rest)] := by
  refine emit_of_normalize (normalize_blanks_append lead.blank _) fun none => ?_
  rw [normalize_keyword hk gap, unwords_eq_append_flatMap] at none
  exact hk.1 (List.append_eq_nil_iff.1 none).1

theorem words_unwords_keyword (hk : IsLiteral k) (rest : List Char) :
    words (unwords (k :: wordsAfter rest)) = k :: wordsAfter rest :=
  words_unwords (List.forall_mem_cons.2 ⟨hk.isBare.isWord, fun _ => isWord_of_mem_words⟩)

/-- The keyword is a token as it stands. -/
theorem tokensOfWords_keyword (hk : IsLiteral k) (ws : List (List Char)) :
    tokensOfWords (k :: ws) = String.ofList k :: tokensOfWords ws := by
  have plain : unquote k = k :=
    unquote_of_isLiteral fun c hc => isQuote_of_isLiteralChar (hk.2 c hc)
  simp [tokensOfWords, plain, hk.1]

end Normal

/-! ## The statement -/

section Statement

variable {k : String} {rest : List Char}

/-- A statement starts with the first character of its keyword. -/
theorem exists_unwords_keyword (hk : IsLiteral k.toList) (ws : List (List Char)) :
    ∃ c cs, unwords (k.toList :: ws) = c :: cs ∧ isLiteralChar c = true := by
  obtain ⟨c, cs, chars⟩ := List.exists_cons_of_ne_nil hk.1
  exact ⟨c, _, by rw [unwords_eq_append_flatMap, chars]; rfl, hk.2 c (by simp [chars])⟩

/-- So it is no comment. -/
theorem isComment_of_isLiteralChar {c : Char} (hc : isLiteralChar c = true) (cs : List Char) :
    Statement.isComment (c :: cs) = false := by
  have other : c ≠ '/' := by
    rintro rfl
    exact absurd hc (by decide)
  simp [Statement.isComment, List.isPrefixOf, other.symm]

/-- **A keyword at the start of a text without delimiters** decides what it is about. -/
theorem ofText_keyword_ended (hk : IsLiteral k.toList) (gap : Gap)
    (free : ∀ c ∈ rest, Lexeme.ofDelimiter? c = none) :
    Statement.ofText (String.ofList (normalize (k.toList ++ gap.chars ++ rest)))
      = ⟨StatementKind.ofTokens [k], k :: tokensOfWords (wordsAfter rest),
        String.ofList (normalize (k.toList ++ gap.chars ++ rest)), false⟩ := by
  have chars := String.toList_ofList (l := normalize (k.toList ++ gap.chars ++ rest))
  have literal : ∀ c ∈ k.toList, Lexeme.ofDelimiter? c = none := fun c hc =>
    ofDelimiter?_of_isBareChar (hk.isBare.2 c hc)
  have undelimited := undelimited_normalize (List.forall_mem_append.2
    ⟨List.forall_mem_append.2 ⟨literal, undelimited_of_isHeadChar gap.isHeadChar⟩, free⟩)
  have tokens : tokens (normalize (k.toList ++ gap.chars ++ rest))
      = k :: tokensOfWords (wordsAfter rest) := by
    rw [normalize_keyword hk, ProtoSchema.tokens, words_unwords_keyword hk,
      tokensOfWords_keyword hk, String.ofList_toList]
  have code : Statement.isComment (normalize (k.toList ++ gap.chars ++ rest)) = false := by
    obtain ⟨c, cs, start, hc⟩ := exists_unwords_keyword hk (wordsAfter rest)
    rw [normalize_keyword hk, start]
    exact isComment_of_isLiteralChar hc cs
  rw [Statement.ofText_of_undelimited (by rwa [chars]) (by rwa [chars]), chars, tokens]
  rfl

/-- **A keyword at the start of a text that opens a body**, if it asks for one. -/
theorem ofText_keyword_opening (hk : IsLiteral k.toList) (gap : Gap) (rest : List Char)
    (opener : (StatementKind.ofTokens [k]).isOpener = true) :
    Statement.ofText (String.ofList (normalize (k.toList ++ gap.chars ++ rest ++ [' ', '{'])))
      = ⟨StatementKind.ofTokens [k], k :: tokensOfWords (wordsAfter rest),
        String.ofList (normalize (k.toList ++ gap.chars ++ rest ++ [' ', '{'])), true⟩ := by
  obtain ⟨c, cs, start, hc⟩ := exists_unwords_keyword hk (wordsAfter rest)
  have chars : (String.ofList (normalize (k.toList ++ gap.chars ++ rest ++ [' ', '{']))).toList
      = unwords (k.toList :: wordsAfter rest) ++ [' '] ++ ['{'] := by
    rw [String.toList_ofList, normalize_keyword_opening hk]
    simp
  have body : Statement.body (unwords (k.toList :: wordsAfter rest) ++ [' '] ++ ['{'])
      = c :: trimEnd (cs ++ [' ']) := by
    rw [Statement.body_append_brace, start, List.cons_append,
      trimEnd_cons (isBlank_of_isBareChar (isBareChar_of_isLiteralChar hc))]
  have words : words (c :: trimEnd (cs ++ [' '])) = k.toList :: wordsAfter rest := by
    rw [← trimEnd_cons (isBlank_of_isBareChar (isBareChar_of_isLiteralChar hc)), words_trimEnd,
      ← List.cons_append, ← start, words_append_of_blanks (by simp [isBlank_space]),
      words_unwords_keyword hk]
  have tokens : tokens (c :: trimEnd (cs ++ [' '])) = k :: tokensOfWords (wordsAfter rest) := by
    rw [ProtoSchema.tokens, words, tokensOfWords_keyword hk, String.ofList_toList]
  have code := isComment_of_isLiteralChar hc (trimEnd (cs ++ [' ']))
  have closing : c :: trimEnd (cs ++ [' ']) ≠ ['}'] := fun e => by
    obtain ⟨rfl, -⟩ := List.cons.inj e
    exact absurd hc (by decide)
  have kind : StatementKind.ofTokens (k :: tokensOfWords (wordsAfter rest))
      = StatementKind.ofTokens [k] := rfl
  rw [Statement.ofText_of_code (by rwa [chars, body]) (by rwa [chars, body]), chars, body, tokens,
    Statement.endsOpen_append_brace, kind, opener]
  rfl

end Statement

end ProtoSchema
