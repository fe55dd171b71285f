import ProtoSchema.Proofs.Document.Steps
import ProtoSchema.Proofs.Scopes.Untyped

/-!
# Proofs/Document/Erasure — steps that come to nothing

A step of a draft that fails or is refused leaves the draft as it is, and so does finishing it.  So
these steps can be erased from a history: the others are taken from the same drafts and get the same
answers, and the history ends in the same draft (`Draft.erase_void`).  The containers that count
their fields end in the same state as well: no count is raised for a field that is refused.
-/

namespace ProtoSchema

/-! ## Histories with their answers -/

/-- **A step that was taken**: the draft it was taken from and the answer it got. -/
structure DraftEvent where
  before : Draft
  step : DraftStep
  answer : DraftAnswer
deriving Repr, DecidableEq

/-- **The steps of a history as they were taken.** -/
def Draft.events (d : Draft) : List DraftStep → List DraftEvent
  | [] => []
  | step :: steps => ⟨d, step, (d.apply step).1⟩ :: (d.apply step).2.events steps

/-- The step failed, or what it should add was refused. -/
def DraftAnswer.isRefusal : DraftAnswer → Bool
  | .failed _ | .scopes (.failed _) | .scopes .refused => true
  | _ => false

/-- **A void step**: it failed or was refused, or all it did was to finish the draft. -/
def DraftEvent.isVoid (e : DraftEvent) : Bool := e.step = .finish || e.answer.isRefusal

/-- The steps of a history that are not void, as they were taken. -/
def Draft.properEvents (d : Draft) (steps : List DraftStep) : List DraftEvent :=
  (d.events steps).filter (!·.isVoid)

/-- **The history with its void steps erased.** -/
def Draft.proper (d : Draft) (steps : List DraftStep) : List DraftStep :=
  (d.properEvents steps).map DraftEvent.step

/-! ## Void steps -/

theorem Scopes.answerTo_of_isRefusal {s : Scopes} {t : Option Scopes}
    (h : (DraftAnswer.scopes (s.answerTo t).1).isRefusal = true) : (s.answerTo t).2 = s := by
  cases t with
  | none => rfl
  | some t => exact nomatch h

/-- **What is refused, or fails, leaves the scopes as they are.** -/
theorem Scopes.apply_of_isRefusal {s : Scopes} {step : ScopeStep}
    (h : (DraftAnswer.scopes (s.apply step).1).isRefusal = true) : (s.apply step).2 = s := by
  cases step with
  | enter kind name => cases h
  | leave place =>
    rw [apply] at h ⊢
    cases left : s.leave with
    | none => rfl
    | some t =>
      rw [left] at h
      cases h
  | addField name type number repeated optional =>
    rw [apply] at h ⊢
    cases added : s.addField name type number repeated optional with
    | none => rfl
    | some t =>
      rw [added] at h
      cases h
  | addSetting _ | addEnumValue _ | addRpc _ => exact answerTo_of_isRefusal h

namespace Draft

/-- **A void step leaves the draft as it is.** -/
theorem apply_of_isVoid {d : Draft} {step : DraftStep}
    (h : (DraftEvent.mk d step (d.apply step).1).isVoid = true) : (d.apply step).2 = d := by
  cases step with
  | setVersion value | setPackage value | imports step => exact nomatch h
  | finish => exact apply_finish d
  | scopes step =>
    exact congrArg (fun s => { d with scopes := s }) (Scopes.apply_of_isRefusal h)

theorem properEvents_cons (d : Draft) (step : DraftStep) (steps : List DraftStep) :
    d.properEvents (step :: steps)
      = if (DraftEvent.mk d step (d.apply step).1).isVoid then d.properEvents steps
        else ⟨d, step, (d.apply step).1⟩ :: (d.apply step).2.properEvents steps := by
  rw [properEvents, events]
  split_ifs with void
  · rw [List.filter_cons_of_neg (by simp [void]), apply_of_isVoid void]
    rfl
  · rw [List.filter_cons_of_pos (by simp [void])]
    rfl

/-- **A history without its void steps is taken as before**, and ends as before. -/
theorem events_proper (d : Draft) (steps : List DraftStep) :
    d.events (d.proper steps) = d.properEvents steps
      ∧ d.run (d.proper steps) = d.run steps := by
  induction steps generalizing d with
  | nil => exact ⟨rfl, rfl⟩
  | cons step steps ih =>
    rw [proper, properEvents_cons]
    split_ifs with void
    · obtain ⟨taken, ends⟩ := ih d
      refine ⟨taken, ends.trans ?_⟩
      change _ = (d.apply step).2.run steps
      rw [apply_of_isVoid void]
    · obtain ⟨taken, ends⟩ := ih (d.apply step).2
      exact ⟨congrArg (_ :: ·) taken, ends⟩

/-- **Void steps can be erased**: what failed, what was refused, and every finishing.  The other
steps are taken from the same drafts with the same answers, and the draft at the end is the same;
so are the open containers with the counts of their fields. -/
theorem erase_void (steps : List DraftStep) :
    empty.events (empty.proper steps) = (empty.events steps).filter (!·.isVoid)
      ∧ empty.run (empty.proper steps) = empty.run steps
      ∧ NodeStack.empty.run ((empty.proper steps).filterMap DraftStep.scope?)
        = NodeStack.empty.run (steps.filterMap DraftStep.scope?) := by
  obtain ⟨taken, ends⟩ := events_proper empty steps
  refine ⟨taken, ends, ?_⟩
  have counted : ∀ steps : List DraftStep,
      NodeStack.empty.run (steps.filterMap DraftStep.scope?) = (empty.run steps).scopes.untyped :=
    fun steps => (Scopes.untyped_run (s := Scopes.empty) trivial _).trans
      (congrArg Scopes.untyped (scopes_run empty steps).symm)
  rw [counted, counted, ends]

end Draft

end ProtoSchema
