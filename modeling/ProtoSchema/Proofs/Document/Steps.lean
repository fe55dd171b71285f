import ProtoSchema.Draft.Step
import ProtoSchema.Proofs.Document.Progress

/-!
# Proofs/Document/Steps — a statement as steps of a draft

Reading a statement takes a draft through some elementary steps and does nothing else to it
(`Progress.draft_of_next`), and only a closing brace that has nothing to close is refused
(`Progress.next_eq_none_iff`).  The steps of the import table and those of the scopes do not meet
(`imports_run`, `scopes_run`), so what each step does to its own part is all there is to know.
-/

namespace ProtoSchema

open TypeRef

/-! ## The parts of a draft -/

/-- The step of the import table that a step of a draft is. -/
def DraftStep.import? : DraftStep → Option ImportStep
  | .imports step => some step
  | _ => none

/-- The step of the scopes that a step of a draft is. -/
def DraftStep.scope? : DraftStep → Option ScopeStep
  | .scopes step => some step
  | _ => none

theorem DraftStep.mem_filterMap_scope? {steps : List DraftStep} {step : ScopeStep} :
    step ∈ steps.filterMap scope? ↔ .scopes step ∈ steps := by
  rw [List.mem_filterMap]
  constructor
  · rintro ⟨_ | _ | _ | step | step, mem, same⟩
    case scopes => exact Option.some.inj same ▸ mem
    all_goals exact nomatch same
  · exact fun mem => ⟨_, mem, rfl⟩

namespace Draft

theorem parts_setVersion (d : Draft) (value : String) :
    (d.setVersion value).imports = d.imports ∧ (d.setVersion value).scopes = d.scopes := by
  unfold setVersion
  split <;> exact ⟨rfl, rfl⟩

theorem parts_setPackage (d : Draft) (value : String) :
    (d.setPackage value).imports = d.imports ∧ (d.setPackage value).scopes = d.scopes := by
  unfold setPackage
  split <;> exact ⟨rfl, rfl⟩

theorem apply_finish (d : Draft) : (d.apply .finish).2 = d := by
  rw [apply]
  cases d.finish <;> rfl

/-- A step takes its step of the import table and its step of the scopes. -/
theorem parts_apply (d : Draft) (step : DraftStep) :
    (d.apply step).2.imports = d.imports.run step.import?.toList
      ∧ (d.apply step).2.scopes = d.scopes.run step.scope?.toList := by
  cases step with
  | setVersion value => exact parts_setVersion d value
  | setPackage value => exact parts_setPackage d value
  | finish =>
    rw [apply_finish]
    exact ⟨rfl, rfl⟩
  | imports step | scopes step => exact ⟨rfl, rfl⟩

/-- **The import table sees only its own steps.** -/
theorem imports_run (d : Draft) (steps : List DraftStep) :
    (d.run steps).imports = d.imports.run (steps.filterMap DraftStep.import?) := by
  induction steps generalizing d with
  | nil => rfl
  | cons step steps ih =>
    refine (ih _).trans ?_
    rw [(parts_apply d step).1]
    cases step <;> rfl

/-- **The scopes see only their own steps.** -/
theorem scopes_run (d : Draft) (steps : List DraftStep) :
    (d.run steps).scopes = d.scopes.run (steps.filterMap DraftStep.scope?) := by
  induction steps generalizing d with
  | nil => rfl
  | cons step steps ih =>
    refine (ih _).trans ?_
    rw [(parts_apply d step).2]
    cases step <;> rfl

/-! ## The steps of a statement -/

/-- Opens a container if the statement opens its body. -/
def bodySteps (s : Statement) (kind : FrameKind) (name : String) : List DraftStep :=
  if s.opensBody then [.scopes (.enter kind name)] else []

/-- Resolves the types of a method and adds it, where a service is open. -/
def rpcSteps (d : Draft) (tokens : List String) : List DraftStep :=
  match RpcLine.ofTokens? tokens with
  | some l =>
    if d.scopes.current = some .service then
      [.imports (.resolve l.argument), .imports (.resolve l.result),
        .scopes (.addRpc ⟨l.name, ofToken l.argument, ofToken l.result⟩)]
    else []
  | none => []

/-- Resolves the type of a field and adds it. -/
def fieldSteps (tokens : List String) : List DraftStep :=
  match FieldLine.ofTokens? tokens with
  | some l =>
    [.imports (.resolve l.type),
      .scopes (.addField l.name (ofToken l.type) l.number l.repeated l.optional)]
  | none => []

/-- Adds a field or a value, by what is open. -/
def memberSteps (d : Draft) (tokens : List String) : List DraftStep :=
  match d.scopes.current with
  | some .message => fieldSteps tokens
  | some .enum => (EnumValue.ofTokens? tokens).toList.map fun v => .scopes (.addEnumValue v)
  | _ => []

/-- **What a statement does to a draft**, given the kind of the statement before it. -/
def steps (d : Draft) (previous : Option StatementKind) (s : Statement) : List DraftStep :=
  match s.kind with
  | .comment =>
    if previous = some .importing then
      (annotatedPackage? s.text).toList.map fun name => .imports (.rekeyLast name)
    else []
  | .version => (argument? s.tokens).toList.map .setVersion
  | .package => (argument? s.tokens).toList.map .setPackage
  | .importing => (argument? s.tokens).toList.map fun path => .imports (.register path)
  | .setting => (Setting.ofTokens? s.tokens).toList.map fun o => .scopes (.addSetting o)
  | .message => bodySteps s .message (s.tokens.getD 1 "")
  | .enum => bodySteps s .enum (s.tokens.getD 1 "")
  | .service => bodySteps s .service (s.tokens.getD 1 "")
  | .rpc =>
    d.rpcSteps (rpcTokens s.text.toList)
      ++ bodySteps s .skipped ((rpcTokens s.text.toList).getD 1 "rpc")
  | .closing => [.scopes (.leave none)]
  | .block => [.scopes (.enter .skipped (s.tokens.headD ""))]
  | .reserved => []
  | .field => d.memberSteps s.tokens

/-! ## Accepting takes the steps -/

variable {d : Draft} {s : Statement} {previous : Option StatementKind} {a : Accepted}

theorem run_append (d : Draft) (xs ys : List DraftStep) : d.run (xs ++ ys) = (d.run xs).run ys :=
  List.foldl_append

theorem draft_withScopes (d : Draft) (t : Option Scopes) :
    (d.withScopes t).draft = { d with scopes := (d.scopes.answerTo t).2 } := by
  cases t <;> rfl

theorem draft_annotate (d : Draft) (comment : String) :
    (d.annotate comment).draft
      = d.run ((annotatedPackage? comment).toList.map fun name => .imports (.rekeyLast name)) := by
  unfold annotate
  cases annotatedPackage? comment with
  | none => rfl
  | some name =>
    change _ = { d with imports := (d.imports.apply (.rekeyLast name)).2 }
    rw [ImportTable.apply]
    dsimp only
    cases d.imports.rekeyLast name <;> rfl

theorem draft_acceptSetting (d : Draft) (tokens : List String) :
    (d.acceptSetting tokens).draft
      = d.run ((Setting.ofTokens? tokens).toList.map fun o => .scopes (.addSetting o)) := by
  unfold acceptSetting
  cases Setting.ofTokens? tokens with
  | none => rfl
  | some o => exact draft_withScopes d _

theorem draft_acceptContainer (d : Draft) (kind : FrameKind) (s : Statement) :
    (d.acceptContainer kind s).draft = d.run (bodySteps s kind (s.tokens.getD 1 "")) := by
  unfold acceptContainer bodySteps
  split_ifs <;> rfl

theorem draft_acceptRpc (d : Draft) (s : Statement) :
    (d.acceptRpc s).draft = d.run (d.rpcSteps (rpcTokens s.text.toList)
      ++ bodySteps s .skipped ((rpcTokens s.text.toList).getD 1 "rpc")) := by
  rw [run_append]
  -- The method itself is read first, whether or not a body follows.
  have entered : ∀ {a : Accepted} {e : Draft} (name : String), a.draft = e →
      (if s.opensBody then (⟨a.draft.enter .skipped name, a.remark⟩ : Accepted) else a).draft
        = e.run (bodySteps s .skipped name) := by
    rintro a e name rfl
    unfold bodySteps
    split_ifs <;> rfl
  refine entered _ ?_
  unfold rpcSteps
  cases RpcLine.ofTokens? (rpcTokens s.text.toList) with
  | none => rfl
  | some l =>
    dsimp only
    split_ifs
    · exact draft_withScopes _ _
    · rfl

theorem draft_acceptField (d : Draft) (tokens : List String) :
    (d.acceptField tokens).draft = d.run (fieldSteps tokens) := by
  unfold acceptField fieldSteps
  cases FieldLine.ofTokens? tokens with
  | none => rfl
  | some l =>
    have added : (d.scopes.answerTo ((d.scopes.addField l.name (ofToken l.type) l.number
          l.repeated l.optional).map Prod.snd)).2
        = (d.scopes.apply (.addField l.name (ofToken l.type) l.number l.repeated
          l.optional)).2 := by
      rw [Scopes.apply]
      cases d.scopes.addField l.name (ofToken l.type) l.number l.repeated l.optional <;> rfl
    refine (draft_withScopes _ _).trans ?_
    rw [added]
    rfl

theorem draft_acceptMember (d : Draft) (tokens : List String) :
    (d.acceptMember tokens).draft = d.run (d.memberSteps tokens) := by
  unfold acceptMember memberSteps
  cases d.scopes.current with
  | none => rfl
  | some kind =>
    cases kind with
    | message => exact draft_acceptField d tokens
    | enum =>
      unfold acceptEnumValue
      cases EnumValue.ofTokens? tokens with
      | none => rfl
      | some v => exact draft_withScopes d _
    | service | skipped => rfl

/-- **Accepting a statement takes its steps.** -/
theorem draft_of_accept (h : d.accept previous s = some a) :
    a.draft = d.run (d.steps previous s) := by
  cases kind : s.kind <;> simp only [accept, steps, kind, Option.some.injEq] at h ⊢
  case comment =>
    subst h
    split_ifs
    · exact draft_annotate d s.text
    · rfl
  case version | package | importing =>
    subst h
    cases argument? s.tokens <;> rfl
  case setting =>
    subst h
    exact draft_acceptSetting d s.tokens
  case message | enum | service =>
    subst h
    exact draft_acceptContainer d _ s
  case rpc =>
    subst h
    exact draft_acceptRpc d s
  case closing =>
    obtain ⟨t, left, rfl⟩ := Option.map_eq_some_iff.1 h
    change _ = { d with scopes := (d.scopes.apply (.leave none)).2 }
    rw [Scopes.apply, left]
  case block | reserved =>
    subst h
    rfl
  case field =>
    subst h
    exact draft_acceptMember d s.tokens

/-- **A statement is refused only for closing where nothing is open.** -/
theorem accept_eq_none_iff :
    d.accept previous s = none ↔ s.kind = .closing ∧ d.scopes.frames = [] := by
  have leave : d.scopes.leave = none ↔ d.scopes.frames = [] := by
    obtain ⟨v, p, imports, frames, entries, services⟩ := d
    match frames with
    | [] | .message _ _ :: _ | .enum _ _ :: _ | .service _ _ :: _ | .skipped _ :: _ =>
      simp [Scopes.leave]
  cases kind : s.kind <;> simp [accept, acceptClosing, kind, leave]

/-! ## The statement before -/

/-- **All that counts of the statement before** is whether it is an import. -/
theorem accept_congr {previous' : Option StatementKind}
    (same : previous = some .importing ↔ previous' = some .importing) (d : Draft) (s : Statement) :
    d.accept previous s = d.accept previous' s := by
  cases kind : s.kind <;> simp only [accept, kind, same]

/-- A comment that follows no import leaves the draft as it is. -/
theorem accept_comment (comment : s.kind = .comment) (apart : previous ≠ some .importing)
    (d : Draft) : d.accept previous s = some ⟨d, none⟩ := by
  rw [accept, comment]
  exact congrArg some (if_neg apart)

end Draft

/-! ## Reading takes the steps -/

namespace Progress

variable {p q r : Progress} {text : String}

/-- **Reading a statement takes its steps.** -/
theorem draft_of_next (h : p.next text = some q) :
    q.draft = p.draft.run (p.draft.steps p.previous (Statement.ofText text)) := by
  obtain ⟨a, accepted, rfl⟩ := Option.map_eq_some_iff.1 h
  exact Draft.draft_of_accept accepted

theorem next_eq_none_iff :
    p.next text = none
      ↔ (Statement.ofText text).kind = .closing ∧ p.draft.scopes.frames = [] :=
  Option.map_eq_none_iff.trans Draft.accept_eq_none_iff

/-- What is read in one place is read in every other that has something open if the one has. -/
theorem exists_next_of_frames (h : p.next text = some q)
    (frames : r.draft.scopes.frames = [] → p.draft.scopes.frames = []) :
    ∃ q', r.next text = some q' := by
  refine Option.ne_none_iff_exists'.1 fun refused => ?_
  obtain ⟨closing, closed⟩ := next_eq_none_iff.1 refused
  exact nomatch h.symm.trans (next_eq_none_iff.2 ⟨closing, frames closed⟩)

end Progress

end ProtoSchema
