import ProtoSchema.Proofs.Document.Steps

/-!
# Proofs/Document/After — reading after something was read

Entries and services that are finished are looked at by no statement.  So a run with some of them in
front takes the same steps as the run without them and keeps them in front (`Progress.run_after`);
that a run starts after another kind of statement does not matter unless it is an import.
-/

namespace ProtoSchema

variable {es : List Entry} {ss : List Service}

/-! ## Finished parts in front -/

/-- **The scopes with entries and services in front** of those that are finished. -/
def Scopes.after (es : List Entry) (ss : List Service) (s : Scopes) : Scopes :=
  { s with entries := es ++ s.entries, services := ss ++ s.services }

/-- The draft with entries and services in front. -/
def Draft.after (es : List Entry) (ss : List Service) (d : Draft) : Draft :=
  { d with scopes := d.scopes.after es ss }

namespace Scopes

theorem attach_after (s : Scopes) (e : Entry) :
    (s.after es ss).attach e = (s.attach e).after es ss := by
  obtain ⟨frames, entries, services⟩ := s
  match frames with
  | [] => simp [attach, after]
  | .message _ _ :: _ | .enum _ _ :: _ | .service _ _ :: _ | .skipped _ :: _ => rfl

/-- **A step leaves what is in front where it is.** -/
theorem apply_after (s : Scopes) (step : ScopeStep) :
    ((s.after es ss).apply step).2 = (s.apply step).2.after es ss := by
  obtain ⟨frames, entries, services⟩ := s
  cases step with
  | enter kind name => rfl
  | leave place =>
    cases frames with
    | nil => rfl
    | cons f fs =>
      cases f with
      | message name body => exact attach_after ⟨fs, entries, services⟩ (.message name body)
      | enum name body => exact attach_after ⟨fs, entries, services⟩ (.enum ⟨name, body⟩)
      | service _ _ => simp [apply, leave, after]
      | skipped _ => rfl
  | addSetting o =>
    cases frames with
    | nil => simp [apply, addSetting, after, answerTo]
    | cons f fs => cases f <;> rfl
  | addField _ _ _ _ _ | addEnumValue _ | addRpc _ =>
    cases frames with
    | nil => rfl
    | cons f fs => cases f <;> rfl

end Scopes

namespace Draft

theorem apply_after (d : Draft) (step : DraftStep) :
    ((d.after es ss).apply step).2 = (d.apply step).2.after es ss := by
  cases step with
  | setVersion value =>
    change (d.after es ss).setVersion value = (d.setVersion value).after es ss
    by_cases fresh : d.version.isEmpty <;> simp [setVersion, after, fresh]
  | setPackage value =>
    change (d.after es ss).setPackage value = (d.setPackage value).after es ss
    by_cases fresh : d.package.isEmpty <;> simp [setPackage, after, fresh]
  | finish => rw [apply_finish, apply_finish]
  | imports step => rfl
  | scopes step => exact congrArg (fun t => { d with scopes := t }) (d.scopes.apply_after step)

theorem run_after (d : Draft) (steps : List DraftStep) :
    (d.after es ss).run steps = (d.run steps).after es ss := by
  induction steps generalizing d with
  | nil => rfl
  | cons step steps ih => exact (congrArg (run · steps) (apply_after d step)).trans (ih _)

/-- **A statement takes the same steps**, whatever is in front. -/
theorem steps_after (d : Draft) {previous previous' : Option StatementKind}
    (apart : previous' = some .importing ↔ previous = some .importing) (s : Statement) :
    (d.after es ss).steps previous' s = d.steps previous s := by
  cases kind : s.kind <;> simp only [steps, kind]
  case comment => exact if_congr apart rfl rfl
  case rpc => rfl
  case field => rfl

end Draft

/-! ## Runs -/

namespace Progress

variable {p q p' : Progress}

theorem next_after {text : String} (draft : p'.draft = p.draft.after es ss)
    (apart : p'.previous = some .importing ↔ p.previous = some .importing)
    (h : p.next text = some q) :
    ∃ q', p'.next text = some q' ∧ q'.draft = q.draft.after es ss ∧ q'.previous = q.previous := by
  obtain ⟨q', step⟩ := exists_next_of_frames (r := p') h (by rw [draft]; exact id)
  refine ⟨q', step, ?_, (previous_of_next step).trans (previous_of_next h).symm⟩
  rw [draft_of_next step, draft_of_next h, draft, Draft.steps_after _ apart, Draft.run_after]

/-- **A run with something in front keeps it in front** and does the same behind it. -/
theorem run_after {texts : List String} (draft : p'.draft = p.draft.after es ss)
    (apart : p'.previous = some .importing ↔ p.previous = some .importing)
    (h : p.run texts = some q) : ∃ q', p'.run texts = some q' ∧ q'.draft = q.draft.after es ss := by
  induction texts generalizing p p' with
  | nil =>
    obtain rfl := Option.some.inj h
    exact ⟨p', rfl, draft⟩
  | cons text texts ih =>
    obtain ⟨r, step, rest⟩ := run_cons_eq_some_iff.1 h
    obtain ⟨r', step', draft', previous'⟩ := next_after draft apart step
    rw [run_cons_of_next step']
    exact ih draft' (by rw [previous']) rest

end Progress

/-- **A document is read behind what was read before.** -/
theorem Document.ofStatements_after {xs ys : List String} {p : Progress} {d : Document}
    (front : Progress.start.run xs = some p) (draft : p.draft = Draft.empty.after es ss)
    (apart : p.previous ≠ some .importing) (h : ofStatements ys = .ok d) :
    ofStatements (xs ++ ys)
      = .ok { d with entries := es ++ d.entries, services := ss ++ d.services } := by
  obtain ⟨q, run, finish⟩ := ofStatements_eq_ok_iff.1 h
  obtain ⟨closed, rfl⟩ := Draft.finish_eq_ok_iff.1 finish
  have never : Progress.start.previous ≠ some .importing := nofun
  obtain ⟨q', run', draft'⟩ := Progress.run_after draft (iff_of_false apart never) run
  refine ofStatements_eq_ok_iff.2 ⟨q', (Progress.run_append_of_run front).trans run', ?_⟩
  rw [draft']
  exact Draft.finish_eq_ok_iff.2 ⟨closed, rfl⟩

end ProtoSchema
