import ProtoSchema.Proofs.Document.Steps
import ProtoSchema.Proofs.Document.Statements
import ProtoSchema.Proofs.Source.Literal

/-!
# Proofs/Document/Settings — where the options of a document come from

An option at the top of a document was read from one statement of the text
(`Document.exists_statement_of_setting`).  A statement that is neither a comment nor a brace holds
no delimiters, so neither does the value of an option (`Document.undelimited_value`).
-/

namespace ProtoSchema

open Text Source

/-! ## From the document back to a statement -/

theorem Scopes.setting_mem_attach {s : Scopes} {e : Entry} {o : Setting} (other : e ≠ .setting o)
    (h : .setting o ∈ (s.attach e).entries) : .setting o ∈ s.entries := by
  obtain ⟨frames, entries, services⟩ := s
  match frames with
  | [] => exact (List.mem_append.1 h).resolve_right fun mem => other (List.mem_singleton.1 mem).symm
  | .message _ _ :: _ | .enum _ _ :: _ | .service _ _ :: _ | .skipped _ :: _ => exact h

/-- **A step puts no option at the top but the one it adds.** -/
theorem Scopes.setting_mem_apply {s : Scopes} {step : ScopeStep} {o : Setting}
    (h : .setting o ∈ (s.apply step).2.entries) :
    .setting o ∈ s.entries ∨ step = .addSetting o := by
  obtain ⟨frames, entries, services⟩ := s
  cases step with
  | enter kind name => exact .inl h
  | leave place =>
    left
    match frames with
    | [] | .service _ _ :: _ | .skipped _ :: _ => exact h
    | .message name body :: fs =>
      exact setting_mem_attach (s := ⟨fs, entries, services⟩) (e := .message name body) nofun h
    | .enum name body :: fs =>
      exact setting_mem_attach (s := ⟨fs, entries, services⟩) (e := .enum ⟨name, body⟩) nofun h
  | addSetting o' =>
    match frames with
    | [] =>
      refine (List.mem_append.1 h).imp_right fun mem => ?_
      rw [Entry.setting.inj (List.mem_singleton.1 mem)]
    | .message _ _ :: _ | .enum _ _ :: _ | .service _ _ :: _ | .skipped _ :: _ => exact .inl h
  | addField _ _ _ _ _ | addEnumValue _ | addRpc _ =>
    match frames with
    | [] | .message _ _ :: _ | .enum _ _ :: _ | .service _ _ :: _ | .skipped _ :: _ => exact .inl h

theorem Scopes.setting_mem_run {steps : List ScopeStep} {o : Setting} : ∀ {s : Scopes},
    .setting o ∈ (s.run steps).entries → .setting o ∈ s.entries ∨ .addSetting o ∈ steps := by
  induction steps with
  | nil => exact .inl
  | cons step steps ih =>
    intro s h
    rcases ih h with before | later
    · exact (setting_mem_apply before).imp_right fun e => List.mem_cons.2 (.inl e.symm)
    · exact .inr (List.mem_cons_of_mem step later)

/-- **A statement that adds an option is one.** -/
theorem Draft.setting_of_mem_steps {d : Draft} {previous : Option StatementKind} {s : Statement}
    {o : Setting} (h : .scopes (.addSetting o) ∈ d.steps previous s) :
    s.kind = .setting ∧ Setting.ofTokens? s.tokens = some o := by
  have body : ∀ {kind name}, .scopes (.addSetting o) ∉ bodySteps s kind name := fun mem => by
    unfold bodySteps at mem
    split_ifs at mem <;> simp at mem
  cases kind : s.kind <;> simp only [steps, kind] at h
  case comment =>
    split_ifs at h <;> simp at h
  case setting => simpa using h
  case message | enum | service => exact absurd h body
  case rpc =>
    rcases List.mem_append.1 h with h | h
    · unfold rpcSteps at h
      split at h
      · split_ifs at h <;> simp at h
      · simp at h
    · exact absurd h body
  case field =>
    unfold memberSteps fieldSteps at h
    split at h
    · split at h <;> simp at h
    all_goals simp at h
  all_goals simp at h

/-- What is read from a list of statements. -/
theorem Progress.setting_mem_run {texts : List String} {o : Setting} : ∀ {p q : Progress},
    p.run texts = some q → .setting o ∈ q.draft.scopes.entries →
      .setting o ∈ p.draft.scopes.entries ∨ ∃ text ∈ texts,
        (Statement.ofText text).kind = .setting
          ∧ Setting.ofTokens? (Statement.ofText text).tokens = some o := by
  induction texts with
  | nil =>
    rintro p q h mem
    obtain rfl := Option.some.inj h
    exact .inl mem
  | cons text texts ih =>
    rintro p q h mem
    obtain ⟨r, step, rest⟩ := run_cons_eq_some_iff.1 h
    rcases ih rest mem with before | ⟨later, there, read⟩
    · rw [draft_of_next step, Draft.scopes_run] at before
      refine (Scopes.setting_mem_run before).imp_right fun added => ?_
      exact ⟨text, List.mem_cons_self,
        Draft.setting_of_mem_steps (DraftStep.mem_filterMap_scope?.1 added)⟩
    · exact .inr ⟨later, List.mem_cons_of_mem text there, read⟩

/-- **An option at the top of a document was read from a statement.** -/
theorem Document.exists_statement_of_setting {texts : List String} {d : Document} {o : Setting}
    (h : ofStatements texts = .ok d) (mem : .setting o ∈ d.entries) :
    ∃ text ∈ texts, (Statement.ofText text).kind = .setting
      ∧ Setting.ofTokens? (Statement.ofText text).tokens = some o := by
  obtain ⟨q, run, finish⟩ := ofStatements_eq_ok_iff.1 h
  obtain ⟨-, rfl⟩ := Draft.finish_eq_ok_iff.1 finish
  exact (Progress.setting_mem_run run mem).resolve_left nofun

/-! ## The value of an option -/

/-- The tokens of a text are made of its characters. -/
theorem mem_of_mem_tokens {cs : List Char} {v : String} (h : v ∈ tokens cs) {c : Char}
    (hc : c ∈ v.toList) : c ∈ cs := by
  rw [tokens_eq_map_words] at h
  obtain ⟨w, hw, rfl⟩ := List.mem_map.1 h
  rw [String.toList_ofList] at hc
  exact List.mem_of_mem_filter ((infix_of_mem_words hw).subset hc)

theorem Setting.value_mem_of_ofTokens? {ts : List String} {o : Setting}
    (h : ofTokens? ts = some o) : o.value ∈ ts := by
  match ts with
  | keyword :: name :: ts =>
    obtain rfl := Option.some.inj h
    exact List.mem_cons_of_mem keyword List.getLastD_mem_cons

/-- **The value of an option holds no delimiters.** -/
theorem Document.undelimited_value {text : String} {d : Document} {o : Setting}
    (h : ofText text = .ok d) (mem : .setting o ∈ d.entries) :
    ∀ c ∈ o.value.toList, Lexeme.ofDelimiter? c = none := by
  intro c hc
  obtain ⟨_, there, kind, read⟩ := exists_statement_of_setting h mem
  obtain ⟨cs, made, rfl⟩ := List.mem_map.1 there
  have statement : IsStatement (String.ofList cs).toList := by
    rw [String.toList_ofList]
    exact isStatement_of_mem_statementChars made
  obtain ⟨tokens, free⟩ := Statement.undelimited_of_kind statement kind
  rw [tokens] at read
  exact free c (mem_of_mem_tokens (Setting.value_mem_of_ofTokens? read) hc)

end ProtoSchema
