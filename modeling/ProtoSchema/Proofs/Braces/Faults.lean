import ProtoSchema.Proofs.Braces.Nesting
import ProtoSchema.Proofs.Document.Steps

/-!
# Proofs/Braces/Faults — statements are wrong only by their braces

Accepting a statement nests its brace on the names of the open containers and fails only where that
fails (`names_accept`), whatever the statement says besides.  So whether statements make a document,
and if not why, is read off their braces (`ofStatements_braces`).
-/

namespace ProtoSchema

open Text

/-! ## The brace of a statement -/

/-- The name of the container that a statement opens. -/
def Statement.frameName (s : Statement) : String :=
  match s.kind with
  | .message | .enum | .service => s.tokens.getD 1 ""
  | .rpc => (rpcTokens s.text.toList).getD 1 "rpc"
  | _ => s.tokens.headD ""

/-- **The brace of a statement**: comments have none, whatever they end with, and a closing brace
opens nothing. -/
def braceOf (text : String) : Brace :=
  let body := Statement.body text.toList
  if Statement.isComment body then .neutral
  else if body = ['}'] then .closer
  else if Statement.endsOpen text.toList then .opener (Statement.ofText text).frameName
  else .neutral

/-- The braces of a list of statements. -/
def bracesOf (texts : List String) : List Brace := texts.map braceOf

/-! ## Names of open containers -/

/-- The names of the open containers, innermost first. -/
def Scopes.names (s : Scopes) : List String := s.frames.map Frame.name

/-- The names of a draft's open containers, innermost first. -/
def Draft.names (d : Draft) : List String := d.scopes.names

/-- What a step does to the names of the open containers. -/
def ScopeStep.nest : ScopeStep → List String → List String
  | .enter _ name, names => name :: names
  | .leave _, names => names.tail
  | _, names => names

/-- What steps do to the names of the open containers. -/
def ScopeStep.nestAll (steps : List ScopeStep) (names : List String) : List String :=
  steps.foldl (fun names step => step.nest names) names

theorem Scopes.names_attach (s : Scopes) (e : Entry) : (s.attach e).names = s.names := by
  obtain ⟨frames, entries, services⟩ := s
  match frames with
  | [] | .message _ _ :: _ | .enum _ _ :: _ | .service _ _ :: _ | .skipped _ :: _ => rfl

theorem Scopes.names_apply (s : Scopes) (step : ScopeStep) :
    (s.apply step).2.names = step.nest s.names := by
  obtain ⟨frames, entries, services⟩ := s
  cases step with
  | enter kind name => exact congrArg (· :: _) (Frame.name_ofKind _ name)
  | leave place =>
    match frames with
    | [] | .service _ _ :: _ | .skipped _ :: _ => rfl
    | .message _ _ :: _ | .enum _ _ :: _ => exact names_attach _ _
  | addSetting _ | addField _ _ _ _ _ | addEnumValue _ | addRpc _ =>
    match frames with
    | [] | .message _ _ :: _ | .enum _ _ :: _ | .service _ _ :: _ | .skipped _ :: _ => rfl

theorem Scopes.names_run (s : Scopes) (steps : List ScopeStep) :
    (s.run steps).names = ScopeStep.nestAll steps s.names := by
  induction steps generalizing s with
  | nil => rfl
  | cons step steps ih => exact (ih _).trans (congrArg _ (names_apply s step))

/-! ## Accepting nests -/

/-- What a statement does to the names of the open containers. -/
def Statement.nest (s : Statement) (names : List String) : List String :=
  match s.kind with
  | .message | .enum | .service | .rpc => if s.opensBody then s.frameName :: names else names
  | .block => s.frameName :: names
  | .closing => names.tail
  | _ => names

namespace Draft

variable {s : Statement}

theorem nestAll_bodySteps (s : Statement) (kind : FrameKind) (name : String)
    (names : List String) :
    ScopeStep.nestAll ((bodySteps s kind name).filterMap DraftStep.scope?) names
      = if s.opensBody then name :: names else names := by
  unfold bodySteps
  split <;> rfl

theorem nestAll_rpcSteps (d : Draft) (tokens names : List String) :
    ScopeStep.nestAll ((d.rpcSteps tokens).filterMap DraftStep.scope?) names = names := by
  unfold rpcSteps
  split
  · split <;> rfl
  · rfl

theorem nestAll_memberSteps (d : Draft) (tokens names : List String) :
    ScopeStep.nestAll ((d.memberSteps tokens).filterMap DraftStep.scope?) names = names := by
  unfold memberSteps fieldSteps
  split
  · split <;> rfl
  · cases EnumValue.ofTokens? tokens <;> rfl
  · rfl

theorem nestAll_steps (d : Draft) (previous : Option StatementKind) (s : Statement)
    (names : List String) :
    ScopeStep.nestAll ((d.steps previous s).filterMap DraftStep.scope?) names = s.nest names := by
  cases kind : s.kind <;> simp only [steps, Statement.nest, Statement.frameName, kind]
  case comment =>
    split
    · cases annotatedPackage? s.text <;> rfl
    · rfl
  case version | package | importing => cases argument? s.tokens <;> rfl
  case setting => cases Setting.ofTokens? s.tokens <;> rfl
  case message | enum | service => exact nestAll_bodySteps s _ _ names
  case rpc =>
    rw [List.filterMap_append, ScopeStep.nestAll, List.foldl_append]
    exact (congrArg _ (nestAll_rpcSteps d _ names)).trans (nestAll_bodySteps s _ _ names)
  case closing | block | reserved => rfl
  case field => exact nestAll_memberSteps d s.tokens names

end Draft

/-- No first token makes a statement a closing brace or a block. -/
theorem StatementKind.ofTokens_ne {kind : StatementKind} (h : kind = .closing ∨ kind = .block)
    (ts : List String) : ofTokens ts ≠ kind := by
  cases ts with
  | nil => rcases h with rfl | rfl <;> decide
  | cons t ts =>
    simp only [ofTokens, ofKeyword?]
    rcases h with rfl | rfl <;> split <;> simp

/-- A statement that opens no body leaves the open containers alone. -/
theorem Statement.nest_of_shut {s : Statement} (shut : s.opensBody = false)
    (closing : s.kind ≠ .closing) (block : s.kind ≠ .block) (names : List String) :
    s.nest names = names := by
  cases kind : s.kind <;> simp_all [nest]

/-- A statement that opens a body opens a container. -/
theorem Statement.nest_of_opens {s : Statement} (opens : s.opensBody = true)
    (kind : s.kind.isOpener = true ∨ s.kind = .block) (names : List String) :
    s.nest names = s.frameName :: names := by
  cases h : s.kind <;> simp_all [nest, StatementKind.isOpener]

/-- **The brace of a statement nests as the statement does**, but for a closing brace that has
nothing to close. -/
theorem nest_braceOf (text : String) (names : List String) :
    Brace.nest names (braceOf text)
      = if (Statement.ofText text).kind = .closing ∧ names = [] then none
        else some ((Statement.ofText text).nest names) := by
  by_cases comment : Statement.isComment (Statement.body text.toList) = true
  · simp [braceOf, Statement.ofText, Statement.nest, comment, Brace.nest]
  by_cases closing : Statement.body text.toList = ['}']
  · have uncommented : Statement.isComment ['}'] = false := rfl
    cases names <;>
      simp [braceOf, Statement.ofText, Statement.nest, closing, uncommented, Brace.nest]
  have read := Statement.ofText_of_code (Bool.eq_false_iff.2 comment) closing
  cases opens : Statement.endsOpen text.toList with
  | false =>
    have brace : braceOf text = .neutral := by simp [braceOf, comment, closing, opens]
    have kind : (Statement.ofText text).kind
        = StatementKind.ofTokens (tokens (Statement.body text.toList)) := by simp [read, opens]
    have other := StatementKind.ofTokens_ne (.inl rfl) (tokens (Statement.body text.toList))
    have block := StatementKind.ofTokens_ne (.inr rfl) (tokens (Statement.body text.toList))
    rw [← kind] at other block
    rw [if_neg fun both => other both.1, brace,
      Statement.nest_of_shut (by simp [read, opens]) other block]
    rfl
  | true =>
    have brace : braceOf text = .opener (Statement.ofText text).frameName := by
      simp [braceOf, comment, closing, opens]
    have kind : (Statement.ofText text).kind.isOpener = true
        ∨ (Statement.ofText text).kind = .block := by
      cases opener : (StatementKind.ofTokens (tokens (Statement.body text.toList))).isOpener with
      | true => exact .inl (by simp [read, opens, opener])
      | false => exact .inr (by simp [read, opens, opener])
    have other : (Statement.ofText text).kind ≠ .closing := fun e => by
      rw [e] at kind
      exact absurd kind (by decide)
    rw [if_neg fun both => other both.1, brace,
      Statement.nest_of_opens (by simp [read, opens]) kind]
    rfl

/-- **A statement nests its brace**, and is refused only if that has nothing to close. -/
theorem Draft.names_accept (d : Draft) (previous : Option StatementKind) (text : String) :
    (d.accept previous (Statement.ofText text)).map (fun a => a.draft.names)
      = Brace.nest d.names (braceOf text) := by
  have empty : d.names = [] ↔ d.scopes.frames = [] := List.map_eq_nil_iff
  rw [nest_braceOf]
  cases accepted : d.accept previous (Statement.ofText text) with
  | none =>
    obtain ⟨closing, frames⟩ := accept_eq_none_iff.1 accepted
    rw [if_pos ⟨closing, empty.2 frames⟩]
    rfl
  | some a =>
    have taken : ¬ ((Statement.ofText text).kind = .closing ∧ d.names = []) := fun both =>
      Option.some_ne_none a
        (accepted.symm.trans (accept_eq_none_iff.2 ⟨both.1, empty.1 both.2⟩))
    rw [if_neg taken, Option.map_some, draft_of_accept accepted, names, scopes_run,
      Scopes.names_run, nestAll_steps, names]

/-! ## Reading nests -/

namespace Progress

theorem names_next (p : Progress) (text : String) :
    (p.next text).map (fun q => q.draft.names) = Brace.nest p.draft.names (braceOf text) := by
  rw [next, Option.map_map]
  exact Draft.names_accept p.draft p.previous text

/-- **A run of statements nests their braces.** -/
theorem names_run (p : Progress) (texts : List String) :
    (p.run texts).map (fun q => q.draft.names)
      = Brace.nestAll p.draft.names (bracesOf texts) := by
  induction texts generalizing p with
  | nil => rfl
  | cons text texts ih =>
    rw [run_cons, bracesOf, List.map_cons, Brace.nestAll_cons, ← names_next]
    cases p.next text with
    | none => rfl
    | some q => exact ih q

variable {p : Progress} {texts : List String}

/-- What a run from the start leaves open are the unmatched openers. -/
theorem names_of_run_start (h : start.run texts = some p) :
    Brace.Covered (bracesOf texts)
      ∧ p.draft.names = (Brace.unmatched (bracesOf texts)).reverse := by
  have nested := names_run start texts
  rw [h] at nested
  exact Brace.nestAll_nil_eq_some_iff.1 nested.symm

theorem exists_run_of_covered (h : Brace.Covered (bracesOf texts)) :
    ∃ p, start.run texts = some p := by
  have nested := names_run start texts
  have some := Brace.nestAll_nil_eq_some_iff.2 ⟨h, rfl⟩
  have nested : (start.run texts).map (fun q => q.draft.names) = _ := nested.trans some
  obtain ⟨p, run, -⟩ := Option.map_eq_some_iff.1 nested
  exact ⟨p, run⟩

/-- A statement is refused for closing where nothing is open. -/
theorem closer_of_next_eq_none {text : String} (h : p.next text = none) :
    braceOf text = .closer ∧ p.draft.names = [] := by
  have nested := names_next p text
  rw [h] at nested
  cases brace : braceOf text with
  | neutral => simp [brace, Brace.nest] at nested
  | opener name => simp [brace, Brace.nest] at nested
  | closer =>
    refine ⟨rfl, ?_⟩
    cases names : p.draft.names with
    | nil => rfl
    | cons name names => simp [brace, names, Brace.nest] at nested

end Progress

namespace Document

open Brace

variable {texts : List String}

theorem finish_eq_error {d : Draft} (h : d.names ≠ []) :
    d.finish = .error (.unclosed d.names.reverse) := by
  have some : d.scopes.frames ≠ [] := fun e => h (List.map_eq_nil_iff.2 e)
  rw [Draft.finish, if_neg (by simpa using some), Scopes.openNames, List.map_reverse]
  rfl

/-- **A text that is not covered fails at its first stray closing brace.** -/
theorem ofStatements_of_not_covered (h : ¬ Covered (bracesOf texts)) :
    ∃ xs text ys, texts = xs ++ text :: ys ∧ braceOf text = .closer ∧ Balanced (bracesOf xs)
      ∧ ofStatements texts = .error ⟨.strayClose, some ⟨(xs.length + 1 : Nat), some text⟩⟩ := by
  have none : Progress.start.run texts = none := by
    by_contra some
    obtain ⟨p, run⟩ := Option.ne_none_iff_exists'.1 some
    exact h (Progress.names_of_run_start run).1
  obtain ⟨xs, text, ys, q, rfl, ran, refused⟩ := Draft.exists_refused none
  obtain ⟨closer, empty⟩ := Progress.closer_of_next_eq_none refused
  obtain ⟨covered, names⟩ := Progress.names_of_run_start ran
  rw [empty] at names
  have balanced := balanced_iff.2 ⟨covered, List.reverse_eq_nil_iff.1 names.symm⟩
  exact ⟨xs, text, ys, rfl, closer, balanced, ofStatements_of_refused ran refused⟩

/-- **A covered text fails if openers stay unmatched**, and names them. -/
theorem ofStatements_of_unmatched (h : Covered (bracesOf texts))
    (some : unmatched (bracesOf texts) ≠ []) :
    ofStatements texts = .error ⟨.unclosed (unmatched (bracesOf texts)), none⟩ := by
  obtain ⟨p, run⟩ := Progress.exists_run_of_covered h
  obtain ⟨-, names⟩ := Progress.names_of_run_start run
  have ne : p.draft.names ≠ [] := by
    rw [names]
    exact fun e => some (List.reverse_eq_nil_iff.1 e)
  rw [ofStatements_of_run run, finish_eq_error ne, names, List.reverse_reverse]
  rfl

theorem ofStatements_of_balanced (h : Balanced (bracesOf texts)) :
    ∃ d, ofStatements texts = .ok d := by
  obtain ⟨covered, none⟩ := balanced_iff.1 h
  obtain ⟨p, run⟩ := Progress.exists_run_of_covered covered
  obtain ⟨-, names⟩ := Progress.names_of_run_start run
  rw [none] at names
  have closed : p.draft.scopes.frames = [] := List.map_eq_nil_iff.1 names
  exact ⟨_, ofStatements_eq_ok_iff.2 ⟨p, run, Draft.finish_eq_ok_iff.2 ⟨closed, rfl⟩⟩⟩

/-- **Statements make a document just if their braces are balanced, and fail by their braces
otherwise**: at the first closing brace that is one too many, or at the end, with the names of the
openers that stay unmatched, the outermost first. -/
theorem ofStatements_braces (texts : List String) :
    ((∃ d, ofStatements texts = .ok d) ↔ Balanced (bracesOf texts))
    ∧ (¬ Covered (bracesOf texts) → ∃ xs text ys e, texts = xs ++ text :: ys
        ∧ braceOf text = .closer ∧ Covered (bracesOf xs) ∧ ¬ Covered (bracesOf (xs ++ [text]))
        ∧ ofStatements texts = .error e
        ∧ e = ⟨.strayClose, some ⟨(xs.length + 1 : Nat), some text⟩⟩
        ∧ e.message = "Statement " ++ toString (xs.length + 1) ++ " (" ++ Text.quoted text
            ++ "): " ++ "Closing brace without an open container")
    ∧ (Covered (bracesOf texts) → openers (bracesOf texts) ≠ closers (bracesOf texts) →
        ∃ names e, names = unmatched (bracesOf texts)
        ∧ names.length = openers (bracesOf texts) - closers (bracesOf texts)
        ∧ ofStatements texts = .error e
        ∧ e = ⟨.unclosed names, none⟩
        ∧ e.message = "Unexpected end of input: "
            ++ toString (openers (bracesOf texts) - closers (bracesOf texts))
            ++ " container(s) still open (" ++ " > ".intercalate names ++ ")") := by
  refine ⟨⟨?_, ofStatements_of_balanced⟩, ?_, ?_⟩
  · rintro ⟨d, read⟩
    by_contra unbalanced
    by_cases covered : Covered (bracesOf texts)
    · have some : unmatched (bracesOf texts) ≠ [] := fun none =>
        unbalanced (balanced_iff.2 ⟨covered, none⟩)
      exact absurd (read.symm.trans (ofStatements_of_unmatched covered some)) (by simp)
    · obtain ⟨xs, text, ys, -, -, -, failed⟩ := ofStatements_of_not_covered covered
      exact absurd (read.symm.trans failed) (by simp)
  · intro uncovered
    obtain ⟨xs, text, ys, split, closes, balanced, failed⟩ := ofStatements_of_not_covered uncovered
    have stray : ¬ Covered (bracesOf (xs ++ [text])) := by
      rw [bracesOf, List.map_append, List.map_singleton, closes]
      exact not_covered_concat balanced
    exact ⟨xs, text, ys, _, split, closes, balanced.1, stray, failed, rfl, rfl⟩
  · intro covered ne
    have count := length_unmatched_of_covered covered
    have some : unmatched (bracesOf texts) ≠ [] := fun none => ne (balanced_iff.2 ⟨covered, none⟩).2
    refine ⟨_, _, rfl, count, ofStatements_of_unmatched covered some, rfl, ?_⟩
    rw [← count]
    rfl

/-- A method with a body in a message, a comment that ends in a brace, and a brace that is open at
the end. -/
example : ofStatements ["message M \x7b", "rpc F (A) returns (B) \x7b", "// \x7d \x7b"]
    = .error ⟨.unclosed ["M", "F"], none⟩ := by decide +kernel

end Document

end ProtoSchema
