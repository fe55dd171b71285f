import ProtoSchema.Proofs.Document.After

/-!
# Proofs/Document/Concatenation — statements behind statements

Statements that make a document leave no container open.  What stands behind them is read as if it
stood alone, but for the imports: an annotation may move an import from before the seam, and a use
may be noted in one.  So two lists of statements that make documents make one together, with the
entries and services of both (`Document.ofStatements_append`).
-/

namespace ProtoSchema

namespace Draft

variable {front d d' : Draft}

/-! ## A finished front -/

/-- **The draft behind a finished one**, whose version and package count if it has them. -/
def behind (front d : Draft) : Draft where
  version := if front.version = "" then d.version else front.version
  package := if front.package = "" then d.package else front.package
  imports := d.imports
  scopes := d.scopes.after front.scopes.entries front.scopes.services

theorem apply_behind (front d : Draft) (step : DraftStep) :
    ((front.behind d).apply step).2 = front.behind (d.apply step).2 := by
  cases step with
  | setVersion value =>
    change (front.behind d).setVersion value = front.behind (d.setVersion value)
    by_cases set : front.version = "" <;> by_cases fresh : d.version = "" <;>
      simp [setVersion, behind, set, fresh]
  | setPackage value =>
    change (front.behind d).setPackage value = front.behind (d.setPackage value)
    by_cases set : front.package = "" <;> by_cases fresh : d.package = "" <;>
      simp [setPackage, behind, set, fresh]
  | finish => rw [apply_finish, apply_finish]
  | imports step => rfl
  | scopes step =>
    exact congrArg (fun t => { front.behind d with scopes := t }) (d.scopes.apply_after step)

/-- **A draft goes the same way behind a finished one.** -/
theorem run_behind (front d : Draft) (steps : List DraftStep) :
    (front.behind d).run steps = front.behind (d.run steps) := by
  induction steps generalizing d with
  | nil => rfl
  | cons step steps ih => exact (congrArg (run · steps) (apply_behind front d step)).trans (ih _)

/-! ## Imports aside -/

/-- The draft without its imports. -/
def unimported (d : Draft) : Draft := { d with imports := .empty }

theorem unimported_eq_iff : d'.unimported = d.unimported
    ↔ d'.version = d.version ∧ d'.package = d.package ∧ d'.scopes = d.scopes := by
  simp [unimported]

theorem unimported_apply (d : Draft) {step : DraftStep} (own : step.import? = none) :
    (d.apply step).2.unimported = (d.unimported.apply step).2 := by
  cases step with
  | setVersion value =>
    change (d.setVersion value).unimported = d.unimported.setVersion value
    by_cases fresh : d.version.isEmpty <;> simp [setVersion, unimported, fresh]
  | setPackage value =>
    change (d.setPackage value).unimported = d.unimported.setPackage value
    by_cases fresh : d.package.isEmpty <;> simp [setPackage, unimported, fresh]
  | finish => rw [apply_finish, apply_finish]
  | imports step => exact absurd own (Option.some_ne_none step)
  | scopes step => rfl

/-- Without its imports a draft goes the way of the steps that are not of them. -/
theorem unimported_run (d : Draft) (steps : List DraftStep) :
    (d.run steps).unimported = d.unimported.run (steps.filter (·.import?.isNone)) := by
  induction steps generalizing d with
  | nil => rfl
  | cons step steps ih =>
    refine (ih _).trans ?_
    cases own : step.import? with
    | none =>
      rw [List.filter_cons_of_pos (by simp [own])]
      exact congrArg (run · _) (unimported_apply d own)
    | some step' =>
      rw [List.filter_cons_of_neg (by simp [own])]
      cases step with
      | imports step => rfl
      | setVersion _ | setPackage _ | finish | scopes _ => exact nomatch own

/-- **A statement takes the same steps where the same is open**, those of the imports aside. -/
theorem filter_steps (same : d'.scopes.current = d.scopes.current)
    (previous previous' : Option StatementKind) (s : Statement) :
    (d'.steps previous' s).filter (·.import?.isNone)
      = (d.steps previous s).filter (·.import?.isNone) := by
  cases kind : s.kind <;> simp only [steps, kind]
  case comment =>
    split_ifs <;> simp [DraftStep.import?]
  case rpc => rw [rpcSteps, rpcSteps, same]
  case field => rw [memberSteps, memberSteps, same]

end Draft

/-! ## Runs -/

namespace Progress

variable {front : Draft} {p q p' : Progress}

theorem next_behind {text : String}
    (draft : p'.draft.unimported = (front.behind p.draft).unimported) (h : p.next text = some q) :
    ∃ q', p'.next text = some q'
      ∧ q'.draft.unimported = (front.behind q.draft).unimported := by
  obtain ⟨-, -, scopes⟩ := Draft.unimported_eq_iff.1 draft
  obtain ⟨q', step⟩ := exists_next_of_frames (r := p') h (by rw [scopes]; exact id)
  have current : p'.draft.scopes.current = p.draft.scopes.current :=
    (congrArg Scopes.current scopes).trans rfl
  refine ⟨q', step, ?_⟩
  rw [draft_of_next step, draft_of_next h, ← Draft.run_behind, Draft.unimported_run,
    Draft.unimported_run, draft, Draft.filter_steps current p.previous p'.previous]

/-- **A run behind a finished draft** comes to what it comes to alone, the imports aside. -/
theorem run_behind {texts : List String}
    (draft : p'.draft.unimported = (front.behind p.draft).unimported)
    (h : p.run texts = some q) :
    ∃ q', p'.run texts = some q'
      ∧ q'.draft.unimported = (front.behind q.draft).unimported := by
  induction texts generalizing p p' with
  | nil =>
    obtain rfl := Option.some.inj h
    exact ⟨p', rfl, draft⟩
  | cons text texts ih =>
    obtain ⟨r, step, rest⟩ := run_cons_eq_some_iff.1 h
    obtain ⟨r', step', draft'⟩ := next_behind draft step
    rw [run_cons_of_next step']
    exact ih draft' rest

end Progress

namespace Document

/-- A draft with nothing open is what an empty one behind it makes, the imports aside. -/
theorem unimported_of_closed {front : Draft} (closed : front.scopes.frames = []) :
    front.unimported = (front.behind .empty).unimported := by
  obtain ⟨version, package, imports, frames, entries, services⟩ := front
  obtain rfl : frames = [] := closed
  by_cases v : version = "" <;> by_cases p : package = "" <;>
    simp [Draft.unimported, Draft.behind, Draft.empty, Scopes.after, Scopes.empty, v, p]

/-- **Documents are read one behind the other.**  Statements that make a document, and behind them
others that make one, make a document with the entries and services of both; its version and package
are those of the first unless they are empty. -/
theorem ofStatements_append {xs ys : List String} {d e : Document}
    (front : ofStatements xs = .ok d) (back : ofStatements ys = .ok e) :
    ∃ imports, ofStatements (xs ++ ys) = .ok {
      version := if d.version = "" then e.version else d.version
      package := if d.package = "" then e.package else d.package
      imports
      entries := d.entries ++ e.entries
      services := d.services ++ e.services } := by
  obtain ⟨p, first, finished⟩ := ofStatements_eq_ok_iff.1 front
  obtain ⟨q, second, finished'⟩ := ofStatements_eq_ok_iff.1 back
  obtain ⟨closed, rfl⟩ := Draft.finish_eq_ok_iff.1 finished
  obtain ⟨closed', rfl⟩ := Draft.finish_eq_ok_iff.1 finished'
  obtain ⟨r, run, draft⟩ := Progress.run_behind (unimported_of_closed closed) second
  obtain ⟨version, package, scopes⟩ := Draft.unimported_eq_iff.1 draft
  refine ⟨r.draft.imports.entries, ofStatements_eq_ok_iff.2
    ⟨r, (Progress.run_append_of_run first).trans run, Draft.finish_eq_ok_iff.2 ⟨?_, ?_⟩⟩⟩
  · rw [scopes]
    exact closed'
  · rw [scopes, version, package]
    rfl

/-- Statements that use a type and then import its file. -/
def importTexts : List String :=
  ["syntax = \"proto3\"", "message A \x7b", "shared.T t = 1", "\x7d", "import \"shared.proto\""]

/-- The document that they make. -/
def importDocument : Document where
  version := "proto3"
  package := ""
  imports := [⟨"shared", ".", "shared.proto", []⟩]
  entries := [.message "A" [.field ⟨"t", ⟨"T", some "shared"⟩, 1, 0, false, false⟩]]
  services := []

/-- Statements of which the first annotates an import that stands right before them. -/
def annotationTexts : List String :=
  ["// package: common", "syntax = \"proto2\"", "package acme", "message B \x7b",
    "common.U u = 2", "\x7d", "service S \x7b", "\x7d"]

/-- The document that they make. -/
def annotationDocument : Document where
  version := "proto2"
  package := "acme"
  imports := []
  entries := [.message "B" [.field ⟨"u", ⟨"U", some "common"⟩, 2, 0, false, false⟩]]
  services := [⟨"S", []⟩]

/-- The annotation reaches over the seam, but to the imports alone. -/
theorem ofStatements_append_annotation :
    ofStatements importTexts = .ok importDocument
      ∧ ofStatements annotationTexts = .ok annotationDocument
      ∧ ∃ imports, ofStatements (importTexts ++ annotationTexts) = .ok ⟨"proto3", "acme", imports,
        importDocument.entries ++ annotationDocument.entries, [⟨"S", []⟩]⟩ := by
  have front : ofStatements importTexts = .ok importDocument := by decide +kernel
  have back : ofStatements annotationTexts = .ok annotationDocument := by decide +kernel
  exact ⟨front, back, ofStatements_append front back⟩

end Document

end ProtoSchema
