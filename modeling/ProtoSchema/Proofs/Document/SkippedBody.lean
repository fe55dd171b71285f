import ProtoSchema.Proofs.Braces.Faults

/-!
# Proofs/Document/SkippedBody — a skipped body leaves no trace

Where a skipped frame is innermost a statement opens and closes skipped frames and does nothing else
(`next_skipping`), unless it speaks of the file as a whole.  So a balanced body in a skipped frame
comes to nothing: the document is that of the statements without the body, and so is the error but
for its place (`ofStatements_skipped_body`).
-/

namespace ProtoSchema

/-! ## Skipped frames -/

/-- The scopes with skipped frames of these names open on top, the innermost first. -/
def Scopes.skipping (s : Scopes) (names : List String) : Scopes :=
  { s with frames := names.map Frame.skipped ++ s.frames }

/-- The draft with skipped frames of these names open on top, the innermost first. -/
def Draft.skipping (d : Draft) (names : List String) : Draft :=
  { d with scopes := d.scopes.skipping names }

/-- The kinds of statements that speak of the file as a whole, wherever they stand. -/
def StatementKind.ofFile (k : StatementKind) : Bool := k = version || k = package || k = importing

variable {names : List String}

theorem Scopes.current_skipping (s : Scopes) (ne : names ≠ []) :
    (s.skipping names).current = some .skipped := by
  obtain ⟨name, names, rfl⟩ := List.exists_cons_of_ne_nil ne
  rfl

/-- **In a skipped frame a step opens and closes skipped frames** and does nothing else. -/
theorem Scopes.apply_skipping (s : Scopes) (ne : names ≠ []) (step : ScopeStep) :
    ((s.skipping names).apply step).2 = s.skipping (step.nest names) := by
  obtain ⟨name, names, rfl⟩ := List.exists_cons_of_ne_nil ne
  cases step with
  | enter kind inner => cases kind <;> rfl
  | leave _ | addSetting _ | addField _ _ _ _ _ | addEnumValue _ | addRpc _ => rfl

namespace Draft

variable {d : Draft} {s : Statement} {previous : Option StatementKind}

/-- Where the innermost frame is skipped a statement takes one step of the scopes or none. -/
theorem exists_steps_eq (skipped : d.scopes.current = some .skipped)
    (inner : s.kind.ofFile = false) (apart : s.kind = .comment → previous ≠ some .importing) :
    ∃ step : Option ScopeStep, d.steps previous s = step.toList.map .scopes := by
  have body : ∀ kind name,
      ∃ step : Option ScopeStep, bodySteps s kind name = step.toList.map .scopes := by
    intro kind name
    unfold bodySteps
    split
    · exact ⟨some (.enter kind name), rfl⟩
    · exact ⟨none, rfl⟩
  cases kind : s.kind <;> simp only [steps, kind]
  case comment => exact ⟨none, if_neg (apart kind)⟩
  case version | package | importing => simp [kind, StatementKind.ofFile] at inner
  case setting =>
    refine ⟨(Setting.ofTokens? s.tokens).map .addSetting, ?_⟩
    cases Setting.ofTokens? s.tokens <;> rfl
  case message | enum | service => exact body _ _
  case rpc =>
    have none : d.rpcSteps (rpcTokens s.text.toList) = [] := by
      unfold rpcSteps
      rw [skipped]
      cases RpcLine.ofTokens? (rpcTokens s.text.toList) <;> rfl
    rw [none, List.nil_append]
    exact body _ _
  case closing => exact ⟨some (.leave none), rfl⟩
  case block => exact ⟨some (.enter .skipped _), rfl⟩
  case reserved => exact ⟨none, rfl⟩
  case field =>
    refine ⟨none, ?_⟩
    rw [memberSteps, skipped]
    rfl

/-- **In a skipped frame a statement nests its brace** and does nothing else. -/
theorem accept_skipping (d : Draft) (ne : names ≠ []) (inner : s.kind.ofFile = false)
    (apart : s.kind = .comment → previous ≠ some .importing) :
    ∃ a, (d.skipping names).accept previous s = some a ∧ a.draft = d.skipping (s.nest names) := by
  have skipped := d.scopes.current_skipping ne
  obtain ⟨a, accepted⟩ : ∃ a, (d.skipping names).accept previous s = some a := by
    refine Option.ne_none_iff_exists'.1 fun refused => ?_
    have frames := (accept_eq_none_iff.1 refused).2
    simp [skipping, Scopes.skipping, ne] at frames
  refine ⟨a, accepted, ?_⟩
  obtain ⟨step, taken⟩ := exists_steps_eq (d := d.skipping names) skipped inner apart
  have nested := nestAll_steps (d.skipping names) previous s names
  rw [draft_of_accept accepted, ← nested, taken]
  cases step with
  | none => rfl
  | some step => exact congrArg (fun t => { d with scopes := t }) (d.scopes.apply_skipping ne step)

end Draft

/-! ## Skipped statements -/

/-- A brace that nests on a stack nests on top of any other. -/
theorem Brace.nest_append {b : Brace} {inner inner' : List String} (h : nest inner b = some inner')
    (base : List String) : nest (inner ++ base) b = some (inner' ++ base) := by
  match inner, b, h with
  | inner, .neutral, rfl | inner, .opener _, rfl | _ :: inner, .closer, rfl => rfl

namespace Progress

variable {d : Draft} {previous : Option StatementKind} {inner inner' base texts : List String}

theorem next_skipping (d : Draft) (ne : names ≠ []) {text : String}
    (inner : (Statement.ofText text).kind.ofFile = false) (apart : previous ≠ some .importing) :
    next ⟨d.skipping names, previous⟩ text
      = some ⟨d.skipping ((Statement.ofText text).nest names),
          some (Statement.ofText text).kind⟩ := by
  obtain ⟨a, accepted, draft⟩ := d.accept_skipping ne inner fun _ => apart
  rw [next, accepted, Option.map_some, draft]

/-- **Statements in a skipped frame nest their braces** and do nothing else. -/
theorem run_skipping (ne : base ≠ []) (nested : Brace.nestAll inner (bracesOf texts) = some inner')
    (body : ∀ text ∈ texts, (Statement.ofText text).kind.ofFile = false)
    (apart : previous ≠ some .importing) :
    ∃ last, run ⟨d.skipping (inner ++ base), previous⟩ texts
      = some ⟨d.skipping (inner' ++ base), last⟩ := by
  induction texts generalizing inner previous with
  | nil =>
    obtain rfl := Option.some.inj nested
    exact ⟨previous, rfl⟩
  | cons text texts ih =>
    obtain ⟨first, others⟩ := List.forall_mem_cons.1 body
    rw [bracesOf, List.map_cons, Brace.nestAll_cons] at nested
    obtain ⟨names, step, rest⟩ := Option.bind_eq_some_iff.1 nested
    have some_ne : inner ++ base ≠ [] := List.append_ne_nil_of_right_ne_nil inner ne
    have nest : (Statement.ofText text).nest (inner ++ base) = names ++ base := by
      have onto := Brace.nest_append step base
      rw [nest_braceOf, if_neg fun both => some_ne both.2] at onto
      exact Option.some.inj onto
    have next := next_skipping d some_ne first apart
    rw [nest] at next
    rw [run_cons_of_next next]
    refine ih rest others fun e => ?_
    rw [Option.some.inj e] at first
    exact absurd first (by decide)

/-- A closing brace does the same whatever stands before it. -/
theorem next_closing (p : Progress) :
    p.next "\x7d" = p.draft.acceptClosing.map fun a => ⟨a.draft, some .closing⟩ := by
  have kind : (Statement.ofText "\x7d").kind = .closing := by decide
  rw [next, Draft.accept, kind]

/-- **A balanced body in a skipped frame comes to nothing** by its closing brace. -/
theorem run_skipped_body {p : Progress} (skipped : p.draft.scopes.current = some .skipped)
    (apart : p.previous ≠ some .importing) (balanced : Brace.Balanced (bracesOf texts))
    (body : ∀ text ∈ texts, (Statement.ofText text).kind.ofFile = false) :
    ∃ q, p.run ["\x7d"] = some q ∧ p.run (texts ++ ["\x7d"]) = some q := by
  obtain ⟨⟨version, package, imports, frames, entries, services⟩, previous⟩ := p
  obtain ⟨name, fs, rfl⟩ : ∃ name fs, frames = .skipped name :: fs := by
    match frames, skipped with
    | .skipped name :: fs, _ => exact ⟨name, fs, rfl⟩
  have nested : Brace.nestAll [] (bracesOf texts) = some [] := by
    obtain ⟨covered, none⟩ := Brace.balanced_iff.1 balanced
    exact Brace.nestAll_nil_eq_some_iff.2 ⟨covered, by rw [none]; rfl⟩
  obtain ⟨last, run⟩ := run_skipping (d := ⟨version, package, imports, fs, entries, services⟩)
    (List.cons_ne_nil name []) nested body apart
  have closed : ∀ previous, Progress.run ⟨⟨version, package, imports, .skipped name :: fs, entries,
      services⟩, previous⟩ ["\x7d"]
      = some ⟨⟨version, package, imports, fs, entries, services⟩, some .closing⟩ := by
    intro previous
    rw [run_cons, next_closing]
    rfl
  exact ⟨_, closed previous, (run_append_of_run run).trans (closed last)⟩

end Progress

/-- An opening statement is no import. -/
theorem kind_ne_importing_of_isOpener {text : String} (h : (braceOf text).isOpener = true) :
    (Statement.ofText text).kind ≠ .importing := by
  intro kind
  have nested := nest_braceOf text []
  cases brace : braceOf text with
  | opener name => simp [brace, Brace.nest, kind, Statement.nest] at nested
  | neutral | closer => simp [brace, Brace.isOpener] at h

namespace Document

variable {xs body ys : List String} {o : String} {d : Draft}

/-- **A balanced body in a skipped frame is dropped without trace**, but for statements that speak
of the file as a whole: with it and without it the same document is read, or the same fault is
found, further on by the length of the body. -/
theorem ofStatements_skipped_body
    (read : (Draft.empty.readFrom none 1 (xs ++ [o])).result = .ok d)
    (opens : (braceOf o).isOpener = true) (skipped : d.scopes.current = some .skipped)
    (balanced : Brace.Balanced (bracesOf body))
    (inner : ∀ text ∈ body, (Statement.ofText text).kind.ofFile = false) :
    (∃ e, ofStatements (xs ++ [o, "\x7d"] ++ ys) = .ok e
      ∧ ofStatements (xs ++ [o] ++ body ++ ["\x7d"] ++ ys) = .ok e)
    ∨ ∃ e, ofStatements (xs ++ [o, "\x7d"] ++ ys) = .error e
      ∧ ofStatements (xs ++ [o] ++ body ++ ["\x7d"] ++ ys) = .error (e.later body.length) := by
  obtain ⟨p, front, rfl⟩ := Draft.exists_run_of_readFrom (p := .start) read
  have apart : p.previous ≠ some .importing := by
    obtain ⟨q, -, next⟩ := Progress.exists_next_of_run_concat front
    rw [Progress.previous_of_next next]
    exact fun e => kind_ne_importing_of_isOpener opens (Option.some.inj e)
  obtain ⟨q, closed, dropped⟩ := Progress.run_skipped_body skipped apart balanced inner
  have short : Progress.start.run (xs ++ [o, "\x7d"]) = some q := by
    rw [List.append_cons]
    exact (Progress.run_append_of_run front).trans closed
  have long : Progress.start.run (xs ++ [o] ++ body ++ ["\x7d"]) = some q := by
    rw [List.append_assoc]
    exact (Progress.run_append_of_run front).trans dropped
  have longer : (xs ++ [o] ++ body ++ ["\x7d"]).length
      = (xs ++ [o, "\x7d"]).length + body.length := by
    simp only [List.length_append, List.length_cons, List.length_nil]
    omega
  rw [ofStatements_append_of_run short long longer]
  cases ofStatements (xs ++ [o, "\x7d"] ++ ys) with
  | ok e => exact .inl ⟨e, rfl, rfl⟩
  | error e => exact .inr ⟨e, rfl, rfl⟩

/-- What stands in a choice: a comment, and a message with a field and a service in it. -/
def choiceTexts : List String :=
  ["// package: acme", "message N \x7b", "shared.T t = 1", "service S \x7b", "option a = b",
    "rpc F (shared.A) returns (shared.B) \x7b", "\x7d", "\x7d", "\x7d"]

/-- A document with a message from which a choice was dropped. -/
def choiceDropped : Document where
  version := ""
  package := ""
  imports := [⟨"shared", ".", "shared.proto", ["U"]⟩]
  entries := [.message "M" [.field ⟨"u", ⟨"U", some "shared"⟩, 2, 0, false, false⟩]]
  services := []

/-- The choice is dropped, and nothing that it refers to is noted as used. -/
theorem ofStatements_choice :
    Brace.Balanced (bracesOf choiceTexts)
      ∧ ofStatements (["import \"shared.proto\"", "message M \x7b"] ++ ["oneof kind \x7b"]
        ++ choiceTexts ++ ["\x7d"] ++ ["shared.U u = 2", "\x7d"]) = .ok choiceDropped := by
  have balanced : Brace.Balanced (bracesOf choiceTexts) := ⟨by decide +kernel, by decide +kernel⟩
  have short : ofStatements (["import \"shared.proto\"", "message M \x7b"]
      ++ ["oneof kind \x7b", "\x7d"] ++ ["shared.U u = 2", "\x7d"]) = .ok choiceDropped := by
    decide +kernel
  have read : (Draft.empty.readFrom none 1
      (["import \"shared.proto\"", "message M \x7b"] ++ ["oneof kind \x7b"])).result
      = .ok ⟨"", "", ⟨[⟨"shared", ".", "shared.proto", []⟩]⟩,
        ⟨[.skipped "oneof", .message "M" []], [], []⟩⟩ := by decide +kernel
  refine ⟨balanced, ?_⟩
  rcases @ofStatements_skipped_body _ _ ["shared.U u = 2", "\x7d"] _ _ read (by decide +kernel) rfl
      balanced (by decide +kernel) with ⟨e, without, within⟩ | ⟨e, without, -⟩
  · rw [within, ← without, short]
  · exact absurd (short.symm.trans without) (by simp)

end Document

end ProtoSchema
