import ProtoSchema.Proofs.Methods.Keyword
import ProtoSchema.Proofs.Source.Pieces

/-!
# Proofs/Methods/Pieces — the statements of a spelling

The head of a service, each of its methods and the closing brace are pieces of the text
(`MethodSpelling.gives`), so the statements of a spelling are known
(`ServiceSpelling.statements_text`).  A method is one statement if it ends at a semicolon, and also
if it has an empty body on its last line; otherwise its body is opened and closed.
-/

namespace ProtoSchema

open Text Source

/-! ## The statements -/

/-- The statement of an option. -/
def OptionSpelling.statement (o : OptionSpelling) : List Char :=
  normalize ("option".toList ++ o.gap.chars ++ o.content)

namespace MethodSpelling

/-- The statement of a method, with this text after its last parenthesis. -/
def statement (m : MethodSpelling) (u : List Char) : List Char :=
  normalize ("rpc".toList ++ m.gap.chars ++ (m.content ++ ')' :: u))

/-- **The statements of a method.**  An empty body leaves no trace if it opens on the line of the
parenthesis. -/
def statements (m : MethodSpelling) : List (List Char) :=
  match m.ending with
  | .stop => [m.statement m.result.after.chars]
  | .body options _ =>
    if m.result.after.chars.all isGap && options.isEmpty then [m.statement []]
    else m.statement (m.result.after.chars ++ [' ', '{'])
      :: (options.map OptionSpelling.statement ++ [['}']])

end MethodSpelling

namespace ServiceSpelling

/-- The statement that opens the body. -/
def head (s : ServiceSpelling) : List Char :=
  normalize ("service".toList ++ s.gap.chars ++ (s.name.toList ++ s.opened.chars) ++ [' ', '{'])

def statements (s : ServiceSpelling) : List (List Char) :=
  s.head :: (s.methods.flatMap MethodSpelling.statements ++ [['}']])

end ServiceSpelling

/-! ## The pieces -/

theorem OptionSpelling.gives (o : OptionSpelling) : Gives o.chars [o.statement] := by
  have free : ∀ c ∈ o.lead.chars ++ ("option".toList ++ o.gap.chars ++ o.content),
      Lexeme.ofDelimiter? c = none := by
    simp only [List.forall_mem_append]
    exact ⟨undelimited_of_isHeadChar o.lead.isHeadChar,
      ⟨undelimited_of_isHeadChar isLiteral_option.isHeadChar,
        undelimited_of_isHeadChar o.gap.isHeadChar⟩, o.undelimited_content⟩
  have ended := gives_ended free
  rwa [emit_keyword isLiteral_option] at ended

namespace MethodSpelling

variable (m : MethodSpelling)

theorem emit_front (u : List Char) : emit (m.front ++ ')' :: u) = [m.statement u] := by
  have emitted := emit_keyword (k := "rpc".toList) isLiteral_rpc m.lead m.gap
    (m.content ++ ')' :: u)
  rw [statement, ← emitted]
  simp only [front, List.append_assoc]

/-- The statements in a body. -/
theorem gives_options (options : List OptionSpelling) (inside : Blanks) :
    Gives (options.flatMap OptionSpelling.chars ++ (inside.chars ++ ['}']))
      (options.map OptionSpelling.statement ++ [['}']]) := by
  have each := Gives.flatMap (g := fun o => [o.statement]) fun o (_ : o ∈ options) => o.gives
  rw [← List.map_eq_flatMap] at each
  exact each.append (gives_closing inside.blank)

/-- A body with options or with a brace on a later line is not taken for an empty one. -/
theorem emptyBody_eq_none {u : Blanks} {options : List OptionSpelling}
    (h : (u.chars.all isGap && options.isEmpty) = false) (rest : List Char) :
    emptyBody (')' :: (u.chars ++ '{' :: (options.flatMap OptionSpelling.chars ++ rest)))
      = none := by
  rcases Bool.and_eq_false_iff.1 h with later | some
  · refine emptyBody_of_break u.blank ?_ _
    simpa using later
  · obtain ⟨o, os, rfl⟩ : ∃ o os, options = o :: os := by
      cases options with
      | nil => exact nomatch some
      | cons o os => exact ⟨o, os, rfl⟩
    have word : "option".toList = 'o' :: "ption".toList := rfl
    have text := emptyBody_of_text u.blank o.lead.blank (c := 'o') (by decide) (by decide)
      ("ption".toList ++ (o.gap.chars ++ (o.content ++ (';' :: (os.flatMap OptionSpelling.chars
        ++ rest)))))
    simpa [OptionSpelling.chars, word] using text

/-- **A method is a piece of the text**, however it ends. -/
theorem gives : Gives m.chars m.statements := by
  have free : ∀ c ∈ m.front, Lexeme.ofDelimiter? c = none :=
    undelimited_of_isHeadChar m.isHeadChar_front
  have after : ∀ c ∈ m.result.after.chars, isBlank c = true := m.result.after.blank
  rw [chars, statements]
  cases m.ending with
  | stop =>
    have ended := gives_ended (a := m.front ++ ')' :: m.result.after.chars)
      (List.forall_mem_append.2 ⟨free, List.forall_mem_cons.2 ⟨rfl, fun c hc =>
        ofDelimiter?_of_isBlank (after c hc)⟩⟩)
    rwa [m.emit_front] at ended
  | body options inside =>
    dsimp only
    split
    case isTrue empty =>
      obtain ⟨gap, none⟩ := Bool.and_eq_true_iff.1 empty
      obtain rfl := List.isEmpty_iff.1 none
      have body := gives_emptyBody free (List.all_eq_true.1 gap) inside.blank
      rwa [m.emit_front] at body
    case isFalse other =>
      have body := gives_body free after (gives_options options inside) fun rest => by
        rw [List.append_assoc]
        exact emptyBody_eq_none (Bool.eq_false_iff.2 other) _
      rw [List.append_assoc, List.cons_append, m.emit_front] at body
      exact body

end MethodSpelling

/-! ## The whole text -/

namespace ServiceSpelling

variable (s : ServiceSpelling)

theorem closing_not_mem_front : ')' ∉ s.front := by
  simp [front, closing_not_mem (isLiteral_of_isIdentifier s.named),
    not_mem_of_blank s.lead.blank (d := ')') (by decide),
    not_mem_of_blank s.gap.blank (d := ')') (by decide),
    not_mem_of_blank s.opened.blank (d := ')') (by decide)]

theorem gives_front : Gives (s.front ++ ['{']) [s.head] := by
  have free := undelimited_of_isHeadChar s.isHeadChar_front
  have opened := gives_opening free s.closing_not_mem_front
  have emitted := emit_keyword isLiteral_service s.lead s.gap
    (s.name.toList ++ s.opened.chars ++ [' ', '{'])
  have head : emit (s.front ++ [' ', '{']) = [s.head] := by
    simpa only [head, front, List.append_assoc] using emitted
  rwa [head] at opened

/-- **The statements of a spelled service.** -/
theorem statements_text : Source.statements s.text = s.statements.map String.ofList := by
  have methods : Gives (s.methods.flatMap MethodSpelling.chars)
      (s.methods.flatMap MethodSpelling.statements) := .flatMap fun m _ => m.gives
  have whole := ((s.gives_front.append methods).append (gives_closing s.closing.blank)).append
    (gives_blanks s.after.blank)
  have sealed := s.isSealed
  have eq := whole.statementChars_eq sealed.line sealed.block
  rw [Source.statements, text, String.toList_ofList, chars, eq]
  simp [statements]

end ServiceSpelling

end ProtoSchema
