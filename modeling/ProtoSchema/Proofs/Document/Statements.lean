import ProtoSchema.Proofs.Source.Annotation
import ProtoSchema.Proofs.Source.Lexemes
import ProtoSchema.Statement

/-!
# Proofs/Document/Statements — what the statements of a text look like

Every statement of a text is a comment, a closing brace, text that opens a body, or text without
delimiters (`isStatement_of_mem_statementChars`), since it is the normal form of such a text
(`exists_isRaw_of_mem_statementChars`), and how it is classified follows from that.
-/

namespace ProtoSchema

open Text Source

namespace Source

/-- **What a statement is**: a comment, a closing brace, text that opens a body, or text without
delimiters. -/
def IsStatement (cs : List Char) : Prop :=
  Statement.isComment cs = true ∨ cs = ['}'] ∨ Statement.endsOpen cs = true
    ∨ ∀ c ∈ cs, Lexeme.ofDelimiter? c = none

theorem undelimited_normalize {cs : List Char} (h : ∀ c ∈ cs, Lexeme.ofDelimiter? c = none) :
    ∀ c ∈ normalize cs, Lexeme.ofDelimiter? c = none := by
  intro c hc
  refine Option.eq_none_iff_forall_ne_some.2 fun l delimiter => ?_
  have new : c ∉ cs := fun mem => Option.some_ne_none l (delimiter.symm.trans (h c mem))
  rcases Lexeme.cases_of_ofDelimiter? delimiter with ⟨rfl, -⟩ | ⟨rfl, -⟩ | ⟨rfl, -⟩ <;>
    exact not_mem_normalize (by decide) (by decide) new hc

/-! ## What statements are made from -/

/-- **What a statement is made from** while a text is grouped: the text of a comment, a closing
brace, or text without delimiters, which may open a body. -/
inductive IsRaw : List Char → Prop
  | comment (cs : List Char) : IsRaw ('/' :: '/' :: ' ' :: cs)
  | closing : IsRaw ['}']
  | opening {cs : List Char} : (∀ c ∈ cs, Lexeme.ofDelimiter? c = none) → IsRaw (cs ++ [' ', '{'])
  | ended {cs : List Char} : (∀ c ∈ cs, Lexeme.ofDelimiter? c = none) → IsRaw cs

/-- **Grouping makes statements**, if no text that it is given holds a delimiter. -/
theorem exists_isRaw_of_mem_group {x : List Char} : ∀ {ls : List Lexeme} {pending : List Char},
    (∀ c ∈ pending, Lexeme.ofDelimiter? c = none) →
      (∀ cs, .text cs ∈ ls → ∀ c ∈ cs, Lexeme.ofDelimiter? c = none) →
        x ∈ group pending ls → ∃ raw, IsRaw raw ∧ x ∈ emit raw
  | [], pending, hp, _, mem => ⟨pending, .ended hp, mem⟩
  | l :: ls, pending, hp, pieces, mem => by
      have others : ∀ cs, .text cs ∈ ls → ∀ c ∈ cs, Lexeme.ofDelimiter? c = none :=
        fun cs hcs => pieces cs (List.mem_cons_of_mem l hcs)
      have empty : ∀ c ∈ ([] : List Char), Lexeme.ofDelimiter? c = none := by simp
      cases l with
      | text cs =>
        have grown : ∀ c ∈ pending ++ ' ' :: cs, Lexeme.ofDelimiter? c = none :=
          List.forall_mem_append.2 ⟨hp, List.forall_mem_cons.2 ⟨rfl, pieces cs List.mem_cons_self⟩⟩
        exact exists_isRaw_of_mem_group grown others mem
      | opening =>
        rcases List.mem_append.1 mem with mem | mem
        · exact ⟨_, .opening hp, mem⟩
        · exact exists_isRaw_of_mem_group empty others mem
      | closing =>
        rcases List.mem_append.1 mem with mem | mem
        · rcases List.mem_append.1 mem with mem | mem
          · exact ⟨_, .ended hp, mem⟩
          · exact ⟨_, .closing, mem⟩
        · exact exists_isRaw_of_mem_group empty others mem
      | stop =>
        rcases List.mem_append.1 mem with mem | mem
        · exact ⟨_, .ended hp, mem⟩
        · exact exists_isRaw_of_mem_group empty others mem
      | comment cs =>
        rcases List.mem_append.1 mem with mem | mem
        · exact ⟨_, .comment cs, mem⟩
        · exact exists_isRaw_of_mem_group hp others mem

theorem exists_isRaw_of_mem_statementChars {cs x : List Char} (h : x ∈ statementChars cs) :
    ∃ raw, IsRaw raw ∧ x ∈ emit raw := by
  refine exists_isRaw_of_mem_group (by simp) (fun ds hds => ?_) h
  obtain ⟨l, -, piece⟩ := List.mem_flatMap.1 hds
  rcases List.mem_append.1 piece with piece | piece
  · exact Lexeme.isCode_of_mem_ofCode _ _ piece
  · simp at piece

/-! ## What statements look like -/

/-- **The shapes of statements**: a comment, a closing brace, text without delimiters before an
opening brace, or text without delimiters. -/
def HasShape (cs : List Char) : Prop :=
  Statement.isComment cs = true ∨ cs = ['}']
    ∨ (∃ front, cs = front ++ ['{'] ∧ ∀ c ∈ front, Lexeme.ofDelimiter? c = none)
    ∨ ∀ c ∈ cs, Lexeme.ofDelimiter? c = none

theorem hasShape_normalize {raw : List Char} (h : IsRaw raw) : HasShape (normalize raw) := by
  cases h with
  | comment cs =>
    rw [normalize_comment]
    exact .inl rfl
  | closing => exact .inr (.inl (by decide))
  | @opening cs free =>
    obtain ⟨front, split, plain⟩ := exists_normalize_append_brace cs
    refine .inr (.inr (.inl ⟨front, split, fun c hc => ?_⟩))
    rcases plain c hc with rfl | hc
    · rfl
    · exact undelimited_normalize free c hc
  | ended free => exact .inr (.inr (.inr (undelimited_normalize free)))

theorem HasShape.isStatement {cs : List Char} : HasShape cs → IsStatement cs := by
  rintro (comment | closing | ⟨front, rfl, -⟩ | free)
  · exact .inl comment
  · exact .inr (.inl closing)
  · exact .inr (.inr (.inl (by simp [Statement.endsOpen])))
  · exact .inr (.inr (.inr free))

theorem isStatement_of_mem_statementChars {cs x : List Char} (h : x ∈ statementChars cs) :
    IsStatement x := by
  obtain ⟨raw, made, mem⟩ := exists_isRaw_of_mem_statementChars h
  exact eq_normalize_of_mem_emit mem ▸ (hasShape_normalize made).isStatement

end Source

/-! ## Classifying statements -/

namespace Statement

/-- A comment is read as one, even if a brace ends it. -/
theorem isComment_body {cs : List Char} (h : isComment cs = true) : isComment (body cs) = true := by
  obtain ⟨rest, rfl⟩ := List.isPrefixOf_iff_prefix.1 h
  change isComment (body ('/' :: '/' :: rest)) = true
  unfold body
  split_ifs with opens
  · cases rest with
    | nil => exact absurd opens (by decide)
    | cons c rest =>
      rw [List.dropLast_cons_cons, List.dropLast_cons_cons, trimEnd_cons (by decide),
        trimEnd_cons (by decide)]
      simp [isComment]
  · exact h

theorem ofText_of_isComment {text : String} (h : isComment text.toList = true) :
    (ofText text).kind = .comment := by
  simp only [ofText, isComment_body h, if_true]

theorem endsOpen_of_not_mem {cs : List Char} (h : '{' ∉ cs) : endsOpen cs = false := by
  simpa [endsOpen] using fun last => h (List.mem_of_getLast? last)

theorem endsOpen_append_brace (front : List Char) : endsOpen (front ++ ['{']) = true := by
  simp [endsOpen]

theorem body_append_brace (front : List Char) : body (front ++ ['{']) = trimEnd front := by
  rw [body, if_pos (endsOpen_append_brace front), List.dropLast_concat]

/-- Text before an opening brace is no comment without the brace, nor a closing brace. -/
theorem code_append_brace {front : List Char} (comment : isComment (front ++ ['{']) = false)
    (free : '}' ∉ front) :
    isComment (body (front ++ ['{'])) = false ∧ body (front ++ ['{']) ≠ ['}'] := by
  rw [body_append_brace]
  have part := trimEnd_prefix front
  refine ⟨Bool.eq_false_iff.2 fun slashes => ?_, fun same => free (part.subset (by simp [same]))⟩
  have start : ['/', '/'] <+: front ++ ['{'] :=
    ((List.isPrefixOf_iff_prefix.1 slashes).trans part).trans (List.prefix_append front _)
  exact nomatch comment.symm.trans (List.isPrefixOf_iff_prefix.2 start)

/-- Text that opens a body is no option. -/
theorem ofText_of_endsOpen {text : String} (h : endsOpen text.toList = true) :
    (ofText text).kind ≠ .setting := by
  unfold ofText
  dsimp only
  rw [h]
  generalize StatementKind.ofTokens _ = kind
  split_ifs <;> cases kind <;> simp_all [StatementKind.isOpener]

/-- **Text without delimiters is known by its first token.** -/
theorem ofText_of_undelimited {text : String} (comment : isComment text.toList = false)
    (h : ∀ c ∈ text.toList, Lexeme.ofDelimiter? c = none) :
    ofText text
      = ⟨StatementKind.ofTokens (ProtoSchema.tokens text.toList),
        ProtoSchema.tokens text.toList, text, false⟩ := by
  have shut : endsOpen text.toList = false :=
    endsOpen_of_not_mem fun brace => absurd (h '{' brace) (by decide)
  have whole : body text.toList = text.toList := by simp [body, shut]
  have other : body text.toList ≠ ['}'] := fun same =>
    nomatch h '}' (whole ▸ same ▸ List.mem_cons_self)
  rw [ofText_of_code (whole.symm ▸ comment) other, shut, whole]
  rfl

/-- **The statement of an option holds no delimiters.** -/
theorem undelimited_of_kind {text : String} (h : IsStatement text.toList)
    (kind : (ofText text).kind = .setting) :
    (ofText text).tokens = ProtoSchema.tokens text.toList
      ∧ ∀ c ∈ text.toList, Lexeme.ofDelimiter? c = none := by
  by_cases comment : isComment text.toList = true
  · exact nomatch (ofText_of_isComment comment).symm.trans kind
  rcases h with h | closing | opens | free
  · exact absurd h comment
  · obtain rfl : text = "\x7d" := String.toList_injective closing
    exact nomatch (by decide : (ofText "\x7d").kind = .closing).symm.trans kind
  · exact absurd kind (ofText_of_endsOpen opens)
  · exact ⟨by rw [ofText_of_undelimited (by simpa using comment) free], free⟩

end Statement

end ProtoSchema
