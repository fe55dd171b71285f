import ProtoSchema.Proofs.Document.Progress
import ProtoSchema.Proofs.Document.SourceText
import ProtoSchema.Proofs.Document.Statements

/-!
# Proofs/Document/SourceReading — reading the statements of a canonical source

The statement of a line is classified by its first word (`ofText_ended`, `ofText_head`), and its
tokens are the words of the line.  The tokens of a field, of a value and of a method give back what
they were written for.
-/

namespace ProtoSchema

open Text Source

/-! ## Classifying a line -/

theorem isComment_of_inline {cs : List Char} (h : Inline cs) : Statement.isComment cs = false := by
  refine Bool.eq_false_iff.2 fun hc => ?_
  obtain ⟨rest, rfl⟩ := List.isPrefixOf_iff_prefix.1 hc
  exact h.unslashed (by simp)

theorem ne_closing_of_inline {cs : List Char} (h : Inline cs) : cs ≠ ['}'] := fun e => by
  simpa [Lexeme.ofDelimiter?] using h.undelimited '}' (e ▸ List.mem_singleton_self _)

/-- A statement with such a body is known by the tokens of the body. -/
theorem ofText_of_body {text : String} {body : List Char} (hb : Statement.body text.toList = body)
    (h : Inline body) :
    Statement.ofText text
      = ⟨if Statement.endsOpen text.toList && !(StatementKind.ofTokens (tokens body)).isOpener
          then .block else StatementKind.ofTokens (tokens body),
        tokens body, text, Statement.endsOpen text.toList⟩ := by
  subst hb
  exact Statement.ofText_of_code (isComment_of_inline h) (ne_closing_of_inline h)

/-- **A statement without braces is known by its first token.** -/
theorem ofText_of_inline {text : String} (h : Inline text.toList) :
    Statement.ofText text
      = ⟨StatementKind.ofTokens (tokens text.toList), tokens text.toList, text, false⟩ :=
  Statement.ofText_of_undelimited (isComment_of_inline h) h.undelimited

theorem trimEnd_append_space {cs : List Char} {c : Char} (hc : isBlank c = false) :
    trimEnd ((cs ++ [c]) ++ [' ']) = cs ++ [c] := by
  rw [trimEnd, List.reverse_append, List.reverse_append]
  change (List.dropWhile isBlank (' ' :: c :: cs.reverse)).reverse = _
  rw [List.dropWhile_cons_of_pos isBlank_space, List.dropWhile_cons_of_neg (by simp [hc])]
  simp

/-- With an opening brace after it, a statement whose keyword asks for a body opens one. -/
theorem ofText_opening {text : String} {cs : List Char} {c : Char} (h : Inline text.toList)
    (last : text.toList = cs ++ [c]) (hc : isBlank c = false)
    (opener : (StatementKind.ofTokens (tokens text.toList)).isOpener = true) :
    Statement.ofText (text ++ " \x7b")
      = ⟨StatementKind.ofTokens (tokens text.toList), tokens text.toList, text ++ " \x7b",
        true⟩ := by
  have chars : (text ++ " \x7b").toList = (text.toList ++ [' ']) ++ ['{'] := by simp
  have isOpen : Statement.endsOpen (text ++ " \x7b").toList = true := by
    rw [chars, Statement.endsOpen_append_brace]
  have whole : Statement.body (text ++ " \x7b").toList = text.toList := by
    rw [chars, Statement.body_append_brace, last, trimEnd_append_space hc]
  rw [ofText_of_body whole h, isOpen, opener]
  rfl

theorem ofText_closing : Statement.ofText "\x7d" = ⟨.closing, ["\x7d"], "\x7d", false⟩ := by
  decide

/-! ## Tokens -/

theorem unquote_of_isLiteral {w : List Char} (h : ∀ c ∈ w, isQuote c = false) : unquote w = w :=
  List.filter_eq_self.2 fun c hc => by simp [h c hc]

/-- Words without quotes are tokens. -/
theorem tokensOfWords_map_toList {ws : List String}
    (h : ∀ v ∈ ws, v ≠ "" ∧ ∀ c ∈ v.toList, isQuote c = false) :
    tokensOfWords (ws.map String.toList) = ws := by
  have same : (ws.map String.toList).map unquote = ws.map String.toList := by
    refine (List.map_congr_left fun w hw => ?_).trans (List.map_id _)
    obtain ⟨v, hv, rfl⟩ := List.mem_map.1 hw
    exact unquote_of_isLiteral (h v hv).2
  have kept : (ws.map String.toList).filter (!·.isEmpty) = ws.map String.toList := by
    refine List.filter_eq_self.2 fun w hw => ?_
    obtain ⟨v, hv, rfl⟩ := List.mem_map.1 hw
    simpa using (h v hv).1
  rw [tokensOfWords, same, kept, List.map_map]
  exact (List.map_congr_left fun v _ => String.ofList_toList).trans (List.map_id _)

theorem IsToken.ne_empty {v : String} (h : IsToken v) : v ≠ "" := fun e =>
  h.1.isWord.1 (String.toList_eq_nil_iff.2 e)

section Words

variable {w : String} {ws : List String}

theorem tokens_unwords (h : ∀ v ∈ ws, IsToken v) :
    tokens (unwords (ws.map String.toList)) = ws := by
  have word := SourceLine.forall_mem_map_toList fun v hv => (h v hv).1.isWord
  rw [tokens, words_unwords word]
  exact tokensOfWords_map_toList fun v hv => ⟨(h v hv).ne_empty, (h v hv).2⟩

theorem inline_words (h : ∀ v ∈ w :: ws, IsPart v.toList) :
    Inline (" ".intercalate (w :: ws)).toList := by
  rw [toList_intercalate_space]
  exact inline_unwords (SourceLine.forall_mem_map_toList h)

/-- **A line of tokens is known by the first of them.** -/
theorem ofText_ended (h : ∀ v ∈ w :: ws, IsToken v) :
    Statement.ofText (SourceLine.ended (w :: ws)).statement
      = ⟨StatementKind.ofTokens (w :: ws), w :: ws, (SourceLine.ended (w :: ws)).statement,
        false⟩ := by
  have read := ofText_of_inline (inline_words fun v hv => (h v hv).1)
  rwa [toList_intercalate_space, tokens_unwords h] at read

/-- **A keyword and a name open a body**, if the keyword asks for one. -/
theorem ofText_head {keyword name : String} (h : ∀ v ∈ [keyword, name], IsToken v)
    (opener : (StatementKind.ofTokens [keyword, name]).isOpener = true) :
    Statement.ofText (SourceLine.opening [keyword, name]).statement
      = ⟨StatementKind.ofTokens [keyword, name], [keyword, name],
        (SourceLine.opening [keyword, name]).statement, true⟩ := by
  have word := (h name (by simp)).1.isWord
  have last := List.dropLast_concat_getLast word.1
  have blank : isBlank (name.toList.getLast word.1) = false := word.2 _ (List.getLast_mem word.1)
  have split : (" ".intercalate [keyword, name]).toList
      = (keyword.toList ++ ' ' :: name.toList.dropLast) ++ [name.toList.getLast word.1] := by
    rw [toList_intercalate_space, List.append_assoc, List.cons_append, last]
    simp [unwords, List.intercalate_cons_cons]
  have tokens : tokens (" ".intercalate [keyword, name]).toList = [keyword, name] := by
    rw [toList_intercalate_space, tokens_unwords h]
  have text : (SourceLine.opening [keyword, name]).statement
      = " ".intercalate [keyword, name] ++ " \x7b" := rfl
  have inline := inline_words fun v hv => (h v hv).1
  rw [text, ofText_opening inline split blank (tokens.symm ▸ opener), tokens]

/-- The line of a version is known by its first word, and its value loses its quotes. -/
theorem ofText_version {s : String} (h : isPlain s = true) :
    Statement.ofText (SourceLine.ended ["syntax", "=", "\"" ++ s ++ "\""]).statement
      = ⟨.version, ["syntax", "=", s],
        (SourceLine.ended ["syntax", "=", "\"" ++ s ++ "\""]).statement, false⟩ := by
  have part := Document.isPart_of_mem_version h
  have word := SourceLine.forall_mem_map_toList fun v hv => (part v hv).isWord
  have token := isToken_of_isPlain h
  have value : unquote ("\"" ++ s ++ "\"").toList = s.toList := by
    simpa [unquote, isQuote] using token.2
  have ne := token.ne_empty
  have tokens : tokens (" ".intercalate ["syntax", "=", "\"" ++ s ++ "\""]).toList
      = ["syntax", "=", s] := by
    rw [toList_intercalate_space, tokens, words_unwords word, tokensOfWords]
    have keyword : unquote "syntax".toList = "syntax".toList := by decide
    have equals : unquote "=".toList = "=".toList := by decide
    simp only [List.map_cons, List.map_nil, keyword, equals, value]
    simp [ne]
  have read := ofText_of_inline (inline_words part)
  rwa [tokens] at read

end Words

/-! ## References -/

theorem head_isNameOf {c : Char} {cs : List Char} (h : isNameOf (c :: cs) = true) :
    startsName c = true := by
  simp only [isNameOf, Bool.and_eq_true] at h
  exact h.1

theorem dot_not_mem_of_isNameOf {cs : List Char} (h : isNameOf cs = true) : '.' ∉ cs := by
  cases cs with
  | nil => simp
  | cons c cs =>
    simp only [isNameOf, Bool.and_eq_true, List.all_eq_true] at h
    refine fun hd => ?_
    rcases List.mem_cons.1 hd with rfl | hd
    · exact absurd h.1 (by decide)
    · exact absurd (h.2 '.' hd) (by decide)

/-- Names that are joined by dots start as the first of them does. -/
theorem exists_head_of_isDottedName {s : String} (h : isDottedName s = true) :
    ∃ c cs, s.toList = c :: cs ∧ startsName c = true := by
  rw [isDottedName, List.all_eq_true] at h
  have joined : List.intercalate ['.'] (s.toList.splitOn '.') = s.toList :=
    List.intercalate_splitOn '.'
  cases split : s.toList.splitOn '.' with
  | nil => exact absurd split (List.splitOn_ne_nil '.' _)
  | cons first others =>
    rw [split] at h joined
    have name := h first (by simp)
    cases first with
    | nil => simp [isNameOf] at name
    | cons c cs =>
      rw [← joined]
      cases others with
      | nil => exact ⟨c, cs, by simp, head_isNameOf name⟩
      | cons second others =>
        exact ⟨c, _, by rw [List.intercalate_cons_cons]; rfl, head_isNameOf name⟩

namespace TypeRef

variable {r : TypeRef}

theorem exists_head_dotted (h : r.isCanonical = true) :
    ∃ c cs, r.dotted.toList = c :: cs ∧ startsName c = true := by
  obtain ⟨name, _ | qualifier⟩ := r <;>
    simp only [isCanonical, Option.all_none, Option.all_some, Bool.and_true,
      Bool.and_eq_true] at h
  · cases chars : name.toList with
    | nil => simp [isIdentifier, chars, isNameOf] at h
    | cons c cs =>
      rw [isIdentifier, chars] at h
      exact ⟨c, cs, chars, head_isNameOf h⟩
  · obtain ⟨c, cs, chars, starts⟩ := exists_head_of_isDottedName h.2
    have ne : qualifier ≠ "" := fun e => by simp [e] at chars
    exact ⟨c, _, by rw [toList_dotted_of_qualifier ne, chars]; rfl, starts⟩

/-- A canonical reference is written as a type that a field may have. -/
theorem isTypeName_dotted (h : r.isCanonical = true) : isTypeName r.dotted = true := by
  obtain ⟨c, cs, chars, starts⟩ := exists_head_dotted h
  have word : ∀ d ∈ cs, (isWordChar d || d = '.') = true := fun d hd => by
    have literal := (isLiteral_dotted h).2 d (chars ▸ List.mem_cons_of_mem c hd)
    simp only [isLiteralChar, isNameChar, Bool.or_eq_true, decide_eq_true_eq] at literal
    rcases literal with (hd | rfl) | rfl
    · simp [isWordChar_of_isAlphanum hd]
    · simp [isWordChar_underscore]
    · simp
  have ne : c ≠ '.' := fun e => absurd (e ▸ starts) (by decide)
  have all := List.all_eq_true.2 word
  rw [isTypeName, chars]
  split <;> simp_all

/-- **A canonical reference is read from what it is written as.** -/
theorem ofToken_dotted (h : r.isCanonical = true) : ofToken r.dotted = r := by
  obtain ⟨c, cs, chars, starts⟩ := exists_head_dotted h
  have undotted : r.dotted.toList.dropWhile (· = '.') = r.dotted.toList := by
    rw [chars, List.dropWhile_cons_of_neg]
    exact fun e => absurd (of_decide_eq_true e ▸ starts) (by decide)
  rw [ofToken, undotted]
  obtain ⟨name, _ | qualifier⟩ := r <;>
    simp only [isCanonical, Option.all_none, Option.all_some, Bool.and_true,
      Bool.and_eq_true] at h
  · change ofSegments (name.toList.splitOn '.') = _
    rw [List.splitOn_eq_singleton (dot_not_mem_of_isNameOf h)]
    simp [ofSegments]
  · obtain ⟨d, ds, qchars, -⟩ := exists_head_of_isDottedName h.2
    have ne : qualifier ≠ "" := fun e => by simp [e] at qchars
    rw [toList_dotted_of_qualifier ne, List.splitOn_append_cons_self,
      List.splitOn_eq_singleton (dot_not_mem_of_isNameOf h.1)]
    have joined : joinDots (qualifier.toList.splitOn '.') = qualifier.toList :=
      List.intercalate_splitOn '.'
    rw [ofSegments_concat (List.splitOn_ne_nil '.' _), joined, String.ofList_toList,
      String.ofList_toList]

end TypeRef

/-! ## Fields and values -/

/-- **The words of a field give back the field.** -/
theorem Field.ofTokens_words {f : Field} (h : f.isCanonical = true) :
    FieldLine.ofTokens? f.words
      = some ⟨f.name, f.type.dotted, f.number, f.repeated, f.optional⟩ := by
  obtain ⟨name, type, number, order, repeated, optional⟩ := f
  simp only [isCanonical, hasNumeral, Bool.and_eq_true, decide_eq_true_eq] at h
  obtain ⟨⟨⟨⟨-, type'⟩, numeral⟩, single⟩, plain⟩ := h
  have number' := readInt_toString numeral
  have type' := TypeRef.isTypeName_dotted type'
  cases repeated <;> cases optional <;>
    simp_all [words, modifier, FieldLine.ofTokens?, dropModifier, isModifier]

/-- The words of a field start as no statement of another kind does. -/
theorem Field.ofTokens_words_kind {f : Field} (h : f.isCanonical = true) :
    StatementKind.ofTokens f.words = .field := by
  obtain ⟨name, type, number, order, repeated, optional⟩ := f
  simp only [isCanonical, Bool.and_eq_true] at h
  obtain ⟨-, plain⟩ := h
  cases repeated <;> cases optional <;>
    simp_all [words, modifier, StatementKind.ofTokens, isKeyword, StatementKind.ofKeyword?]

theorem Field.ofText_statement {f : Field} (h : f.isCanonical = true) :
    Statement.ofText f.source.statement = ⟨.field, f.words, f.source.statement, false⟩ := by
  have token := Field.isToken_of_mem_words h
  have kind := Field.ofTokens_words_kind h
  change Statement.ofText (SourceLine.ended f.words).statement
    = ⟨.field, f.words, (SourceLine.ended f.words).statement, false⟩
  cases words : f.words with
  | nil => simp [Field.words] at words
  | cons w ws =>
    rw [words] at token kind
    rw [ofText_ended token, kind]

theorem EnumValue.ofTokens_words {v : EnumValue} (h : v.isCanonical = true) :
    EnumValue.ofTokens? [v.name, "=", toString v.number] = some v := by
  simp only [isCanonical, hasNumeral, Bool.and_eq_true, decide_eq_true_eq] at h
  obtain ⟨-, numeral⟩ := h
  rw [ofTokens?, readInt_toString numeral]
  rfl

/-- The words of a value start as no statement of another kind does. -/
theorem EnumValue.ofTokens_words_kind {v : EnumValue} (h : v.isCanonical = true) :
    StatementKind.ofTokens [v.name, "=", toString v.number] = .field := by
  simp only [isCanonical, isKeyword, Bool.and_eq_true, Bool.not_eq_true',
    Option.isSome_eq_false_iff, Option.isNone_iff_eq_none] at h
  obtain ⟨⟨-, free⟩, -⟩ := h
  simp [StatementKind.ofTokens, free]

/-! ## Methods -/

theorem tokensOfWords_append (xs ys : List (List Char)) :
    tokensOfWords (xs ++ ys) = tokensOfWords xs ++ tokensOfWords ys := by
  simp [tokensOfWords]

section Rpc

variable {name argument result : List Char}

/-- **What stands between blanks and parentheses.** -/
def rpcParts (cs : List Char) : List String := tokensOfWords (cs.splitOnP isRpcGap)

/-- The word `stream` and an opening brace are no tokens of a method. -/
def isRpcToken (w : String) : Bool := w ≠ "stream" && w ≠ "\x7b"

theorem rpcTokens_eq (cs : List Char) : rpcTokens cs = (rpcParts cs).filter isRpcToken := rfl

@[simp] theorem rpcParts_nil : rpcParts [] = [] := rfl

/-- What stands before a gap and what stands after it are apart. -/
theorem rpcParts_append_cons {c : Char} (hc : isRpcGap c = true) (a b : List Char) :
    rpcParts (a ++ c :: b) = rpcParts a ++ rpcParts b := by
  rw [rpcParts, List.splitOnP_append_cons a b hc, tokensOfWords_append]
  rfl

theorem isRpcGap_of_isLiteralChar {c : Char} (h : isLiteralChar c = true) :
    isRpcGap c = false := by
  have bare := isBareChar_of_isLiteralChar h
  simp [isRpcGap, isBlank_of_isBareChar bare, ne_of_isBareChar bare (d := '(') (by decide),
    ne_of_isBareChar bare (d := ')') (by decide)]

theorem rpcParts_literal {w : List Char} (h : IsLiteral w) : rpcParts w = [String.ofList w] := by
  have whole : w.splitOnP isRpcGap = [w] :=
    List.splitOnP_eq_singleton fun c hc => isRpcGap_of_isLiteralChar (h.2 c hc)
  have plain : unquote w = w := unquote_of_isLiteral fun c hc => isQuote_of_isLiteralChar (h.2 c hc)
  simp [rpcParts, whole, tokensOfWords, plain, h.1]

/-- A word of literal characters is a token, unless it is `stream`. -/
theorem isRpcToken_of_isLiteral {w : String} (h : IsLiteral w.toList) (ne : w ≠ "stream") :
    isRpcToken w = true := by
  have brace : w ≠ "\x7b" := fun e => absurd (h.2 '{' (by simp [e])) (by decide)
  simp [isRpcToken, ne, brace]

theorem isLiteral_rpc : IsLiteral ['r', 'p', 'c'] :=
  ⟨by simp, List.all_iff_forall_prop.1 rfl⟩

theorem isLiteral_returns : IsLiteral ['r', 'e', 't', 'u', 'r', 'n', 's'] :=
  ⟨by simp, List.all_iff_forall_prop.1 rfl⟩

/-- The parts of a method's line. -/
theorem rpcParts_rpcText (hn : IsLiteral name) (ha : IsLiteral argument) (hr : IsLiteral result) :
    rpcParts (rpcText name argument result)
      = ["rpc", String.ofList name, String.ofList argument, "returns", String.ofList result] := by
  have gaps : rpcText name argument result
      = ['r', 'p', 'c'] ++ ' ' :: (name ++ ' ' :: ([] ++ '(' :: (argument ++ ')' ::
        ([] ++ ' ' :: (['r', 'e', 't', 'u', 'r', 'n', 's'] ++ ' ' :: ([] ++ '(' ::
          (result ++ ')' :: []))))))) := by
    simp [rpcText, returnsGap]
  have space : isRpcGap ' ' = true := by decide
  have opening : isRpcGap '(' = true := by decide
  have closing : isRpcGap ')' = true := by decide
  simp only [gaps, rpcParts_append_cons space, rpcParts_append_cons opening,
    rpcParts_append_cons closing, rpcParts_literal hn, rpcParts_literal ha, rpcParts_literal hr,
    rpcParts_literal isLiteral_rpc, rpcParts_literal isLiteral_returns, rpcParts_nil]
  rfl

end Rpc

namespace Rpc

variable {r : Rpc}

/-- **The tokens of a method's line.** -/
theorem rpcTokens_statement (h : r.isCanonical = true) :
    rpcTokens r.source.statement.toList
      = ["rpc", r.name, r.argument.dotted, "returns", r.result.dotted] := by
  obtain ⟨hn, ha, hr⟩ := isLiteral_parts h
  simp only [isCanonical, TypeRef.isCanonicalInRpc, Bool.and_eq_true, decide_eq_true_eq] at h
  obtain ⟨⟨⟨-, name⟩, -, argument⟩, -, result⟩ := h
  have keywords : isRpcToken "rpc" = true ∧ isRpcToken "returns" = true := by decide
  rw [rpcTokens_eq, toList_statement, rpcParts_rpcText hn ha hr]
  simp [isRpcToken_of_isLiteral hn name, isRpcToken_of_isLiteral ha argument,
    isRpcToken_of_isLiteral hr result, keywords]

/-- A method is known by its first word. -/
theorem ofText_statement (h : r.isCanonical = true) :
    ∃ ts, Statement.ofText r.source.statement = ⟨.rpc, ts, r.source.statement, false⟩ := by
  obtain ⟨hn, ha, hr⟩ := isLiteral_parts h
  have inline := inline_rpcText hn ha hr
  rw [← toList_statement] at inline
  have words : words r.source.statement.toList
      = rpcWords r.name.toList r.argument.dotted.toList r.result.dotted.toList := by
    rw [toList_statement, ← unwords_rpcWords, words_unwords (isWord_of_mem_rpcWords hn ha hr)]
  have kind : StatementKind.ofTokens (tokens r.source.statement.toList) = .rpc := by
    rw [tokens, words]
    rfl
  exact ⟨_, kind ▸ ofText_of_inline inline⟩

end Rpc

end ProtoSchema
