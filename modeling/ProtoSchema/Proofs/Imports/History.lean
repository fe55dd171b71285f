import ProtoSchema.Proofs.Document.Steps
import ProtoSchema.Proofs.Imports.Uses

/-!
# Proofs/Imports/History — what reading does to the import table

Each statement comes to some steps of the import table, none for most.  The table at the end is what
these steps make of the empty one (`imports_of_ofStatements`).  Where the imports of a file come
first, all registrations and moves are done before the first reference is resolved
(`exists_importHistory_split`).
-/

namespace ProtoSchema

/-! ## The steps of a statement -/

namespace Draft

/-- **What a statement does to the import table** of a draft that accepts it. -/
def importSteps (d : Draft) (previous : Option StatementKind) (s : Statement) : List ImportStep :=
  match s.kind with
  | .importing => (argument? s.tokens).toList.map .register
  | .comment =>
    if previous = some .importing then (annotatedPackage? s.text).toList.map .rekeyLast else []
  | .field =>
    match FieldLine.ofTokens? s.tokens with
    | some l => if d.scopes.current = some .message then [.resolve l.type] else []
    | none => []
  | .rpc =>
    match RpcLine.ofTokens? (rpcTokens s.text.toList) with
    | some l =>
      if d.scopes.current = some .service then [.resolve l.argument, .resolve l.result] else []
    | none => []
  | _ => []

/-- The steps of the import table are among the steps of the draft. -/
theorem importSteps_eq (d : Draft) (previous : Option StatementKind) (s : Statement) :
    d.importSteps previous s = (d.steps previous s).filterMap DraftStep.import? := by
  have body : ∀ kind name, (bodySteps s kind name).filterMap DraftStep.import? = [] := by
    intro kind name
    unfold bodySteps
    split <;> rfl
  cases kind : s.kind <;> simp only [importSteps, steps, kind]
  case comment =>
    split
    · cases annotatedPackage? s.text <;> rfl
    · rfl
  case version | package | importing => cases argument? s.tokens <;> rfl
  case setting => cases Setting.ofTokens? s.tokens <;> rfl
  case message | enum | service => exact (body _ _).symm
  case rpc =>
    rw [List.filterMap_append, body, List.append_nil, rpcSteps]
    cases RpcLine.ofTokens? (rpcTokens s.text.toList) with
    | none => rfl
    | some l =>
      dsimp only
      split <;> rfl
  case closing | block | reserved => rfl
  case field =>
    unfold memberSteps fieldSteps
    cases FieldLine.ofTokens? s.tokens <;> cases EnumValue.ofTokens? s.tokens
      <;> cases d.scopes.current with
      | none => rfl
      | some kind => cases kind <;> rfl

end Draft

/-! ## The steps of a run -/

namespace Progress

/-- What the statements of a run do to the import table, in order. -/
def history (p : Progress) : List String → List ImportStep
  | [] => []
  | text :: texts =>
    p.draft.importSteps p.previous (Statement.ofText text)
      ++ (p.next text).elim [] fun q => q.history texts

variable {p q : Progress} {text : String} {texts xs ys : List String}

theorem history_cons_of_next (h : p.next text = some q) :
    p.history (text :: texts)
      = p.draft.importSteps p.previous (Statement.ofText text) ++ q.history texts := by
  rw [history, h]
  rfl

theorem history_append (h : p.run xs = some q) :
    p.history (xs ++ ys) = p.history xs ++ q.history ys := by
  induction xs generalizing p with
  | nil =>
    obtain rfl := Option.some.inj h
    rfl
  | cons x xs ih =>
    obtain ⟨r, step, rest⟩ := run_cons_eq_some_iff.1 h
    rw [List.cons_append, history_cons_of_next step, history_cons_of_next step, ih rest,
      List.append_assoc]

/-- **A run takes the steps of its statements.** -/
theorem imports_run (h : p.run texts = some q) :
    q.draft.imports = p.draft.imports.run (p.history texts) := by
  induction texts generalizing p with
  | nil =>
    obtain rfl := Option.some.inj h
    rfl
  | cons text texts ih =>
    obtain ⟨r, step, rest⟩ := run_cons_eq_some_iff.1 h
    rw [history_cons_of_next step, ih rest, draft_of_next step, Draft.imports_run,
      ← Draft.importSteps_eq, ImportTable.run_append]

end Progress

namespace Document

/-- What statements do to the import table when a document is read from them. -/
def importHistory (texts : List String) : List ImportStep := Progress.start.history texts

/-- **The imports of a document are made by its history.** -/
theorem imports_of_ofStatements {texts : List String} {d : Document}
    (h : ofStatements texts = .ok d) :
    d.imports = (ImportTable.empty.run (importHistory texts)).entries := by
  obtain ⟨p, run, finished⟩ := ofStatements_eq_ok_iff.1 h
  obtain ⟨-, rfl⟩ := Draft.finish_eq_ok_iff.1 finished
  exact congrArg ImportTable.entries (Progress.imports_run run)

end Document

/-! ## Imports that come first -/

/-- The kinds of statements that may refer to types. -/
def StatementKind.refers (k : StatementKind) : Bool := k = field || k = rpc

/-- **No statement that refers to a type stands before an import.** -/
def ImportsFirst (texts : List String) : Prop :=
  texts.Pairwise fun x y =>
    (Statement.ofText y).kind = .importing → (Statement.ofText x).kind.refers = false

instance : DecidablePred ImportsFirst := fun texts =>
  inferInstanceAs (Decidable (texts.Pairwise _))

namespace Draft

variable {d : Draft} {s : Statement} {previous : Option StatementKind} {step : ImportStep}

theorem not_resolve_of_mem_importSteps (refers : s.kind.refers = false)
    (h : step ∈ d.importSteps previous s) : ImportTable.isResolve step = false := by
  unfold importSteps at h
  split at h
  case h_1 => obtain ⟨path, -, rfl⟩ := List.mem_map.1 h; rfl
  case h_2 =>
    split_ifs at h
    · obtain ⟨name, -, rfl⟩ := List.mem_map.1 h
      rfl
    · exact absurd h List.not_mem_nil
  case h_3 field => simp [field, StatementKind.refers] at refers
  case h_4 rpc => simp [rpc, StatementKind.refers] at refers
  case h_5 => exact absurd h List.not_mem_nil

theorem isResolve_of_mem_importSteps (other : s.kind ≠ .importing)
    (apart : s.kind = .comment → previous ≠ some .importing)
    (h : step ∈ d.importSteps previous s) : ImportTable.isResolve step = true := by
  unfold importSteps at h
  split at h
  case h_1 importing => exact absurd importing other
  case h_2 comment =>
    rw [if_neg (apart comment)] at h
    exact absurd h List.not_mem_nil
  case h_3 =>
    split at h
    · split_ifs at h
      · obtain rfl := List.mem_singleton.1 h
        rfl
      · exact absurd h List.not_mem_nil
    · exact absurd h List.not_mem_nil
  case h_4 =>
    split at h
    · split_ifs at h
      · rcases List.mem_pair.1 h with rfl | rfl <;> rfl
      · exact absurd h List.not_mem_nil
    · exact absurd h List.not_mem_nil
  case h_5 => exact absurd h List.not_mem_nil

end Draft

namespace Progress

variable {p : Progress} {texts : List String} {step : ImportStep}

theorem not_resolve_of_mem_history
    (refers : ∀ x ∈ texts, (Statement.ofText x).kind.refers = false)
    (h : step ∈ p.history texts) : ImportTable.isResolve step = false := by
  induction texts generalizing p with
  | nil => exact absurd h List.not_mem_nil
  | cons text texts ih =>
    obtain ⟨first, others⟩ := List.forall_mem_cons.1 refers
    rcases List.mem_append.1 h with h | h
    · exact Draft.not_resolve_of_mem_importSteps first h
    · cases next : p.next text with
      | none => simp [next] at h
      | some q =>
        rw [next] at h
        exact ih others h

theorem isResolve_of_mem_history (apart : p.previous ≠ some .importing)
    (other : ∀ x ∈ texts, (Statement.ofText x).kind ≠ .importing)
    (h : step ∈ p.history texts) : ImportTable.isResolve step = true := by
  induction texts generalizing p with
  | nil => exact absurd h List.not_mem_nil
  | cons text texts ih =>
    obtain ⟨first, others⟩ := List.forall_mem_cons.1 other
    rcases List.mem_append.1 h with h | h
    · exact Draft.isResolve_of_mem_importSteps first (fun _ => apart) h
    · cases next : p.next text with
      | none => simp [next] at h
      | some q =>
        rw [next] at h
        refine ih ?_ others h
        rw [previous_of_next next]
        exact fun e => first (Option.some.inj e)

end Progress

/-- Before the first statement that refers to a type all imports are done. -/
theorem ImportsFirst.exists_split {texts : List String} (h : ImportsFirst texts) :
    ∃ xs ys, texts = xs ++ ys ∧ (∀ x ∈ xs, (Statement.ofText x).kind.refers = false)
      ∧ (∀ y ∈ ys, (Statement.ofText y).kind ≠ .importing)
      ∧ ∀ y ∈ ys.head?, (Statement.ofText y).kind.refers = true := by
  induction texts with
  | nil => exact ⟨[], [], rfl, by simp, by simp, by simp⟩
  | cons text texts ih =>
    obtain ⟨first, later⟩ := List.pairwise_cons.1 h
    cases refers : (Statement.ofText text).kind.refers with
    | true =>
      refine ⟨[], text :: texts, rfl, by simp, ?_, by simp [refers]⟩
      intro y hy importing
      rcases List.mem_cons.1 hy with rfl | hy
      · rw [importing] at refers
        exact absurd refers Bool.false_ne_true
      · exact absurd ((first y hy importing).symm.trans refers) Bool.false_ne_true
    | false =>
      obtain ⟨xs, ys, rfl, none, others, head⟩ := ih later
      exact ⟨text :: xs, ys, rfl, List.forall_mem_cons.2 ⟨refers, none⟩, others, head⟩

/-- **If imports come first, all registrations and moves are done before the first reference is
resolved.** -/
theorem Document.exists_importHistory_split {texts : List String} {d : Document}
    (first : ImportsFirst texts) (h : ofStatements texts = .ok d) :
    ∃ front back, importHistory texts = front ++ back
      ∧ (∀ step ∈ front, ImportTable.isResolve step = false)
      ∧ ∀ step ∈ back, ImportTable.isResolve step = true := by
  obtain ⟨xs, ys, rfl, none, others, head⟩ := first.exists_split
  obtain ⟨p, run, -⟩ := ofStatements_eq_ok_iff.1 h
  obtain ⟨q, front, -⟩ := Progress.exists_run_of_run_append run
  refine ⟨importHistory xs, q.history ys, Progress.history_append front,
    fun step => Progress.not_resolve_of_mem_history none, fun step mem => ?_⟩
  -- Only the first of the later statements could still move an import, and it refers to a type.
  cases ys with
  | nil => exact absurd mem List.not_mem_nil
  | cons y ys =>
    have refers := head y rfl
    obtain ⟨other, others⟩ := List.forall_mem_cons.1 others
    rcases List.mem_append.1 mem with mem | mem
    · refine Draft.isResolve_of_mem_importSteps other (fun comment => ?_) mem
      rw [comment] at refers
      exact absurd refers Bool.false_ne_true
    · cases next : q.next y with
      | none => simp [next] at mem
      | some r =>
        rw [next] at mem
        refine Progress.isResolve_of_mem_history ?_ others mem
        rw [Progress.previous_of_next next]
        exact fun e => other (Option.some.inj e)

end ProtoSchema
