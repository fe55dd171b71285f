import ProtoSchema.Proofs.Scopes.Listing

/-!
# Proofs/Scopes/Transcript — what the answers of a run leave over

A transcript is what a run was asked to do and what it answered.  By the answers alone some steps
are erased: what was refused or failed, and each skipped container with the step that closes it.  If
no container is open at the end, the others are the listing of what was read: those in services that
of the services, and those outside that of the entries (`remaining_transcript`).
-/

namespace ProtoSchema

/-! ## Transcripts -/

/-- A step of the scopes and its answer. -/
structure Answered where
  step : ScopeStep
  answer : ScopeAnswer
deriving Repr, DecidableEq

/-- **The steps of a run with their answers.** -/
def Scopes.transcript (s : Scopes) : List ScopeStep → List Answered
  | [] => []
  | step :: steps => ⟨step, (s.apply step).1⟩ :: (s.apply step).2.transcript steps

/-- The step without the place of the closing brace. -/
def ScopeStep.unplaced : ScopeStep → ScopeStep
  | .leave _ => .leave none
  | step => step

namespace Answered

/-- The kinds of the containers that are open after the step, by its answer; the kinds before it are
given, the innermost first. -/
def opened (a : Answered) (kinds : List FrameKind) : List FrameKind :=
  match a.answer with
  | .entered kind => kind :: kinds
  | .left => kinds.tail
  | _ => kinds

/-- **The step is erased**: it was refused or failed, or it opens or closes a skipped container. -/
def erased (a : Answered) (kinds : List FrameKind) : Bool :=
  match a.answer with
  | .entered kind => kind = .skipped
  | .left => kinds.head? = some .skipped
  | .added | .addedField _ => false
  | .refused | .failed _ => true

/-- The step is made in a service, which it may open or close. -/
def inService (a : Answered) (kinds : List FrameKind) : Bool :=
  .service ∈ kinds || a.answer = .entered .service

end Answered

/-- **The steps that remain of a transcript** when the erased ones are left out, those in services
or else those outside; at its start containers of these kinds are open. -/
def remaining (service : Bool) : List FrameKind → List Answered → List ScopeStep
  | _, [] => []
  | kinds, a :: rest =>
    (if !a.erased kinds && a.inService kinds = service then [a.step.unplaced] else [])
      ++ remaining service (a.opened kinds) rest

/-! ## Answers and frames -/

namespace Scopes

variable {s : Scopes}

/-- The kinds of the open frames, the innermost first. -/
def kinds (s : Scopes) : List FrameKind := s.frames.map Frame.kind

theorem kinds_attach (s : Scopes) (e : Entry) : (s.attach e).kinds = s.kinds := by
  obtain ⟨frames, entries, services⟩ := s
  match frames with
  | [] | .message _ _ :: _ | .enum _ _ :: _ | .service _ _ :: _ | .skipped _ :: _ => rfl

/-- **The answers tell which containers are open.** -/
theorem opened_apply (s : Scopes) (step : ScopeStep) :
    (Answered.mk step (s.apply step).1).opened s.kinds = (s.apply step).2.kinds := by
  obtain ⟨frames, entries, services⟩ := s
  cases step with
  | enter kind name => exact congrArg (· :: _) (Frame.kind_ofKind _ name).symm
  | leave place =>
    match frames with
    | [] | .service _ _ :: _ | .skipped _ :: _ => rfl
    | .message _ _ :: fs | .enum _ _ :: fs => exact (kinds_attach ⟨fs, entries, services⟩ _).symm
  | addSetting _ | addField _ _ _ _ _ | addEnumValue _ | addRpc _ =>
    match frames with
    | [] | .message _ _ :: _ | .enum _ _ :: _ | .service _ _ :: _ | .skipped _ :: _ => rfl

/-- **The answers tell which steps are kept.** -/
theorem kept_eq_of_erased (s : Scopes) (step : ScopeStep) :
    step.kept s.current
      = if (Answered.mk step (s.apply step).1).erased s.kinds then [] else [step.unplaced] := by
  obtain ⟨frames, entries, services⟩ := s
  cases step with
  | enter kind name => simp [ScopeStep.kept, Answered.erased, apply, place, ScopeStep.unplaced]
  | leave _ | addSetting _ | addField _ _ _ _ _ | addEnumValue _ | addRpc _ =>
    obtain _ | ⟨_ | _ | _ | _, _⟩ := frames <;> rfl

/-- Where the innermost frame is skipped every step is erased. -/
theorem current_ne_skipped {step : ScopeStep}
    (kept : (Answered.mk step (s.apply step).1).erased s.kinds = false) :
    s.current ≠ some .skipped := by
  intro skipped
  have none : step.kept s.current = [] := by
    rw [skipped]
    cases step with
    | enter kind name => cases kind <;> rfl
    | leave _ | addSetting _ | addField _ _ _ _ _ | addEnumValue _ | addRpc _ => rfl
  rw [kept_eq_of_erased, kept] at none
  exact List.cons_ne_nil _ _ none

/-- Only a step that opens a container is answered so. -/
theorem exists_enter_of_answer {step : ScopeStep} {kind : FrameKind}
    (answer : (s.apply step).1 = .entered kind) : ∃ kind name, step = .enter kind name := by
  obtain ⟨frames, entries, services⟩ := s
  cases step with
  | enter kind name => exact ⟨kind, name, rfl⟩
  | leave _ | addSetting _ | addField _ _ _ _ _ | addEnumValue _ | addRpc _ =>
    match frames with
    | [] | .message _ _ :: _ | .enum _ _ :: _ | .service _ _ :: _ | .skipped _ :: _ =>
      exact nomatch answer

/-- **The answers tell which steps are made in a service.** -/
theorem inService_eq (h : InPlace s.frames) {step : ScopeStep}
    (kept : (Answered.mk step (s.apply step).1).erased s.kinds = false) :
    (Answered.mk step (s.apply step).1).inService s.kinds = step.ofService s.current := by
  have within : .service ∈ s.kinds ↔ s.current = some .service :=
    h.service_mem_iff (current_ne_skipped kept)
  by_cases opens : ∃ kind name, step = .enter kind name
  · obtain ⟨kind, name, rfl⟩ := opens
    have stands : s.place kind ≠ .skipped := by simpa [Answered.erased, apply] using kept
    have same : s.place kind = kind := (placed_eq_or s.current kind).resolve_right stands
    have outside : s.current ≠ some .service := fun service =>
      stands (by rw [place, service]; cases kind <;> rfl)
    simp [Answered.inService, within, outside, apply, same, ScopeStep.ofService]
  · have answer : (s.apply step).1 ≠ .entered .service := fun e =>
      opens (exists_enter_of_answer e)
    have ofService : step.ofService s.current = decide (s.current = some .service) := by
      cases step with
      | enter kind name => exact absurd ⟨kind, name, rfl⟩ opens
      | leave _ | addSetting _ | addField _ _ _ _ _ | addEnumValue _ | addRpc _ => rfl
    rw [Answered.inService, decide_eq_false answer, Bool.or_false, ofService]
    exact decide_eq_decide.2 within

/-- What remains of a step is what is kept of it. -/
theorem remaining_cons (h : InPlace s.frames) (service : Bool) (step : ScopeStep)
    (rest : List Answered) :
    remaining service s.kinds (⟨step, (s.apply step).1⟩ :: rest)
      = (if step.ofService s.current = service then step.kept s.current else [])
        ++ remaining service (s.apply step).2.kinds rest := by
  rw [remaining, opened_apply, kept_eq_of_erased]
  cases kept : (Answered.mk step (s.apply step).1).erased s.kinds with
  | true => simp
  | false => simp [inService_eq h kept]

/-- **What remains of a transcript is what is kept of the run.** -/
theorem remaining_eq_keptOf (h : InPlace s.frames) (service : Bool) (steps : List ScopeStep) :
    remaining service s.kinds (s.transcript steps) = s.keptOf service steps := by
  induction steps generalizing s with
  | nil => rfl
  | cons step steps ih =>
    rw [transcript, remaining_cons h, keptOf_cons, ih (lists_apply h step).inPlace]

/-- **If no container is open at the end, the steps that remain are the listing of what was read**:
those outside services that of the entries, and those in services that of the services. -/
theorem remaining_transcript {steps : List ScopeStep} (closed : (empty.run steps).depth = 0) :
    remaining false [] (empty.transcript steps) = Entry.stepsOf (empty.run steps).entries
      ∧ remaining true [] (empty.transcript steps)
        = (empty.run steps).services.flatMap Service.steps := by
  have frames : (empty.run steps).frames = [] := List.length_eq_zero_iff.1 closed
  obtain ⟨-, entries, services⟩ := listing_run (s := empty) trivial steps
  constructor
  · refine (remaining_eq_keptOf (s := empty) trivial false steps).trans (entries.symm.trans ?_)
    simp [entrySteps, frames]
  · refine (remaining_eq_keptOf (s := empty) trivial true steps).trans (services.symm.trans ?_)
    simp [serviceSteps, frames]

/-- A run with a message in a service, which is skipped, and a value in a message, which is refused.
-/
def mixedSteps : List ScopeStep :=
  [.enter .service "S", .enter .message "X", .addField "x" ⟨"T", none⟩ 1 false false, .leave none,
    .addRpc ⟨"Do", ⟨"A", none⟩, ⟨"B", none⟩⟩, .leave (some ⟨5, none⟩), .addSetting ⟨"o", "v"⟩,
    .enter .message "M", .addEnumValue ⟨"V", 1⟩, .enter .enum "E", .addEnumValue ⟨"A", 0⟩,
    .leave none, .addField "t" ⟨"T", none⟩ 2 true false, .leave none]

/-- What is left over of the run is a method in a service, and an enum and a field in a message. -/
theorem remaining_mixedSteps :
    (empty.run mixedSteps).depth = 0
      ∧ remaining false [] (empty.transcript mixedSteps)
        = [.addSetting ⟨"o", "v"⟩, .enter .message "M", .enter .enum "E", .addEnumValue ⟨"A", 0⟩,
          .leave none, .addField "t" ⟨"T", none⟩ 2 true false, .leave none]
      ∧ remaining true [] (empty.transcript mixedSteps)
        = [.enter .service "S", .addRpc ⟨"Do", ⟨"A", none⟩, ⟨"B", none⟩⟩, .leave none] := by
  have closed : (empty.run mixedSteps).depth = 0 := by decide +kernel
  obtain ⟨outside, within⟩ := remaining_transcript closed
  refine ⟨closed, outside.trans ?_, within.trans ?_⟩ <;> decide +kernel

end Scopes

end ProtoSchema
