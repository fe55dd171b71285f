import ProtoSchema.Proofs.Braces.Faults
import ProtoSchema.Proofs.Document.Statements
import ProtoSchema.Proofs.Source.NormalForm

/-!
# Proofs/Document/Shapes — statements are in normal form and are no braces by mistake

Every statement of a text is in normal form and has one of four shapes, in which no brace or
semicolon stands but where it delimits the statement (`statement_form`).  So a statement is read as
a closing brace just if it is one, and as opening a body just if it ends with an opening brace and
is no comment (`Statement.kind_eq_closing_iff`, `Statement.opensBody_iff`).
-/

namespace ProtoSchema

open Text Source

/-! ## Classifying by shape -/

namespace Statement

variable {text : String}

/-- A comment opens no body, even if a brace ends it. -/
theorem opensBody_of_isComment (h : isComment text.toList = true) :
    (ofText text).opensBody = false := by
  simp only [ofText, isComment_body h, if_true]

/-- Text before an opening brace opens a body, and is no closing brace. -/
theorem ofText_of_front {front : List Char} (chars : text.toList = front ++ ['{'])
    (comment : isComment text.toList = false) (free : ∀ c ∈ front, Lexeme.ofDelimiter? c = none) :
    (ofText text).opensBody = true ∧ (ofText text).kind ≠ .closing := by
  rw [chars] at comment
  obtain ⟨code, other⟩ := code_append_brace comment fun closing => nomatch free '}' closing
  rw [ofText_of_code (by rwa [chars]) (by rwa [chars]), chars, endsOpen_append_brace]
  refine ⟨rfl, ?_⟩
  dsimp only
  split_ifs
  · nofun
  · exact StatementKind.ofTokens_ne (.inl rfl) _

/-- **Only a closing brace is read as one.** -/
theorem kind_eq_closing_iff (h : HasShape text.toList) :
    (ofText text).kind = .closing ↔ text = "\x7d" := by
  refine ⟨fun kind => ?_, fun brace => brace ▸ by decide⟩
  by_cases comment : isComment text.toList = true
  · exact nomatch (ofText_of_isComment comment).symm.trans kind
  have code : isComment text.toList = false := by simpa using comment
  rcases h with h | closing | ⟨front, chars, free⟩ | free
  · exact absurd h comment
  · exact String.toList_injective closing
  · exact absurd kind (ofText_of_front chars code free).2
  · rw [ofText_of_undelimited code free] at kind
    exact absurd kind (StatementKind.ofTokens_ne (.inl rfl) _)

/-- **Just what ends with an opening brace opens a body**, but for comments. -/
theorem opensBody_iff (h : HasShape text.toList) :
    (ofText text).opensBody = true
      ↔ endsOpen text.toList = true ∧ isComment text.toList = false := by
  by_cases comment : isComment text.toList = true
  · simp [opensBody_of_isComment comment, comment]
  have code : isComment text.toList = false := by simpa using comment
  rcases h with h | closing | ⟨front, chars, free⟩ | free
  · exact absurd h comment
  · obtain rfl : text = "\x7d" := String.toList_injective closing
    decide
  · exact iff_of_true (ofText_of_front chars code free).1
      ⟨chars ▸ endsOpen_append_brace front, code⟩
  · have shut : endsOpen text.toList = false :=
      endsOpen_of_not_mem fun brace => absurd (free '{' brace) (by decide)
    rw [ofText_of_undelimited code free]
    simp [shut]

end Statement

/-! ## The statements of a text -/

namespace Source

/-- **The statements of a text are in normal form and have one of four shapes**, so a statement is
read as a closing brace just if it is one, and as opening a body just if it ends with an opening
brace and is no comment. -/
theorem statement_form {text s : String} (h : s ∈ statements text) :
    s ≠ "" ∧ normalize s.toList = s.toList ∧ SingleSpaced s.toList ∧ HasShape s.toList
      ∧ ((Statement.ofText s).kind = .closing ↔ s = "\x7d")
      ∧ ((Statement.ofText s).opensBody = true
        ↔ Statement.endsOpen s.toList = true ∧ Statement.isComment s.toList = false) := by
  obtain ⟨x, mem, rfl⟩ := List.mem_map.1 h
  obtain ⟨raw, made, mem⟩ := exists_isRaw_of_mem_statementChars mem
  have chars := String.toList_ofList (l := x)
  have normal := eq_normalize_of_mem_emit mem
  have shape : HasShape (String.ofList x).toList := by
    rw [chars, normal]
    exact hasShape_normalize made
  refine ⟨fun empty => ?_, ?_, ?_, shape, Statement.kind_eq_closing_iff shape,
    Statement.opensBody_iff shape⟩
  · -- Nothing is made of a text that is blank.
    have none : normalize raw = [] := by
      rw [← normal, ← chars, empty]
      rfl
    rw [emit, none] at mem
    cases mem
  · rw [chars, normal, normalize_normalize]
  · rw [chars, normal]
    exact singleSpaced_normalize raw

/-- A body that is opened after a comment, the brace not apart from its name. -/
theorem statement_form_opening :
    "message A \x7b" ∈ statements "// x \x7b\nmessage\t A\x7b\x7d"
      ∧ "message A \x7b" ≠ "" ∧ normalize "message A \x7b".toList = "message A \x7b".toList
      ∧ SingleSpaced "message A \x7b".toList ∧ HasShape "message A \x7b".toList
      ∧ ((Statement.ofText "message A \x7b").kind = .closing ↔ "message A \x7b" = "\x7d")
      ∧ ((Statement.ofText "message A \x7b").opensBody = true
        ↔ Statement.endsOpen "message A \x7b".toList = true
          ∧ Statement.isComment "message A \x7b".toList = false) :=
  have mem : "message A \x7b" ∈ statements "// x \x7b\nmessage\t A\x7b\x7d" := by decide
  ⟨mem, statement_form mem⟩

end Source

end ProtoSchema
