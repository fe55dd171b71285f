import Mathlib.Data.List.Basic
import ProtoSchema.Scopes.Step

/-!
# Proofs/Scopes/Listing — scopes list the steps that built them

An entry is listed as the steps that build it, and so is an open frame as far as it is read.  A step
that is kept, neither refused nor made in a skipped frame, goes to the end of the listing of the
entries or of that of the services; any other step leaves both as they are (`lists_apply`).  So a
run is listed in its order, with what was kept of it (`listing_run`).
-/

namespace ProtoSchema

/-! ## Listings -/

/-- The step that adds a field. -/
def Field.step (f : Field) : ScopeStep := .addField f.name f.type f.number f.repeated f.optional

/-- The step that adds an entry of an enum. -/
def EnumEntry.step : EnumEntry → ScopeStep
  | .value v => .addEnumValue v
  | .setting o => .addSetting o

/-- The step that adds an entry of a service. -/
def ServiceEntry.step : ServiceEntry → ScopeStep
  | .rpc r => .addRpc r
  | .setting o => .addSetting o

mutual

/-- **The steps that build an entry.** -/
def Entry.steps : Entry → List ScopeStep
  | .field f => [f.step]
  | .setting o => [.addSetting o]
  | .enum d => .enter .enum d.name :: d.body.map EnumEntry.step ++ [.leave none]
  | .message name body => .enter .message name :: Entry.stepsOf body ++ [.leave none]

/-- The steps that build a body. -/
def Entry.stepsOf : List Entry → List ScopeStep
  | [] => []
  | e :: es => e.steps ++ Entry.stepsOf es

end

/-- The steps that build a service. -/
def Service.steps (s : Service) : List ScopeStep :=
  .enter .service s.name :: s.body.map ServiceEntry.step ++ [.leave none]

/-- The steps that built an open message or enum so far. -/
def Frame.entrySteps : Frame → List ScopeStep
  | .message name body => .enter .message name :: Entry.stepsOf body
  | .enum name body => .enter .enum name :: body.map EnumEntry.step
  | .service _ _ | .skipped _ => []

/-- The steps that built an open service so far. -/
def Frame.serviceSteps : Frame → List ScopeStep
  | .service name body => .enter .service name :: body.map ServiceEntry.step
  | .message _ _ | .enum _ _ | .skipped _ => []

namespace Scopes

/-- **The steps that built the entries so far**, open ones last. -/
def entrySteps (s : Scopes) : List ScopeStep :=
  Entry.stepsOf s.entries ++ s.frames.reverse.flatMap Frame.entrySteps

/-- **The steps that built the services so far**, an open one last. -/
def serviceSteps (s : Scopes) : List ScopeStep :=
  s.services.flatMap Service.steps ++ s.frames.reverse.flatMap Frame.serviceSteps

end Scopes

/-! ## Kept steps -/

/-- **What is kept of a step** where the innermost frame is of kind `current`: nothing if the step
is refused, or opens or closes a skipped frame. -/
def ScopeStep.kept (current : Option FrameKind) : ScopeStep → List ScopeStep
  | .enter kind name =>
    if Scopes.placed current kind = .skipped then [] else [.enter kind name]
  | .leave _ => if current = none ∨ current = some .skipped then [] else [.leave none]
  | .addSetting o => if current = some .skipped then [] else [.addSetting o]
  | .addField name type number repeated optional =>
    if current = some .message then [.addField name type number repeated optional] else []
  | .addEnumValue v => if current = some .enum then [.addEnumValue v] else []
  | .addRpc r => if current = some .service then [.addRpc r] else []

/-- Whether a step that is kept builds a service. -/
def ScopeStep.ofService (current : Option FrameKind) : ScopeStep → Bool
  | .enter kind _ => kind = .service
  | _ => current = some .service

/-- **What is kept of a run**, and whether it builds a service. -/
def Scopes.trace (s : Scopes) : List ScopeStep → List (Bool × ScopeStep)
  | [] => []
  | step :: steps =>
    (step.kept s.current).map (step.ofService s.current, ·) ++ (s.apply step).2.trace steps

/-- What is kept of a run to build services, or else entries. -/
def Scopes.keptOf (s : Scopes) (service : Bool) (steps : List ScopeStep) : List ScopeStep :=
  ((s.trace steps).filter (·.1 = service)).map Prod.snd

/-! ## Frames that are in place -/

/-- **Every frame is of a kind that can stand in the frame around it.** -/
def InPlace : List Frame → Prop
  | [] => True
  | f :: fs => Scopes.placed (fs.head?.map Frame.kind) f.kind = f.kind ∧ InPlace fs

namespace Scopes

variable {current : Option FrameKind}

theorem placed_eq_or (current : Option FrameKind) (kind : FrameKind) :
    placed current kind = kind ∨ placed current kind = .skipped := by
  cases kind <;> simp only [placed] <;> (try split_ifs) <;> simp

theorem placed_placed (current : Option FrameKind) (kind : FrameKind) :
    placed current (placed current kind) = placed current kind := by
  rcases placed_eq_or current kind with same | skipped
  · rw [same, same]
  · rw [skipped]
    rfl

theorem placed_message_iff :
    placed current .message = .message ↔ current = none ∨ current = some .message := by
  simp [placed, or_iff_not_imp_left]

theorem placed_enum_iff :
    placed current .enum = .enum ↔ current = none ∨ current = some .message := by
  simp [placed, or_iff_not_imp_left]

theorem placed_service_iff : placed current .service = .service ↔ current = none := by
  simp [placed]

end Scopes

namespace InPlace

variable {fs : List Frame}

/-- What messages and enums stand on are messages. -/
theorem forall_message (h : InPlace fs)
    (takes : fs.head?.map Frame.kind = none ∨ fs.head?.map Frame.kind = some .message) :
    ∀ f ∈ fs, f.kind = .message := by
  induction fs with
  | nil => simp
  | cons f fs ih =>
    have message : f.kind = .message := by simpa using takes
    have first := h.1
    rw [message] at first
    exact List.forall_mem_cons.2 ⟨message, ih h.2 (Scopes.placed_message_iff.1 first)⟩

/-- A service is open just if it is innermost, skipped frames aside. -/
theorem service_mem_iff (h : InPlace fs) (kept : fs.head?.map Frame.kind ≠ some .skipped) :
    .service ∈ fs.map Frame.kind ↔ fs.head?.map Frame.kind = some .service := by
  cases fs with
  | nil => simp
  | cons f fs =>
    have below : f.kind = .message ∨ f.kind = .enum → .service ∉ fs.map Frame.kind := by
      intro kind mem
      have takes : fs.head?.map Frame.kind = none ∨ fs.head?.map Frame.kind = some .message := by
        have first := h.1
        rcases kind with kind | kind <;> rw [kind] at first
        · exact Scopes.placed_message_iff.1 first
        · exact Scopes.placed_enum_iff.1 first
      obtain ⟨g, hg, service⟩ := List.mem_map.1 mem
      exact absurd ((h.2.forall_message takes g hg).symm.trans service) (by decide)
    cases kind : f.kind <;> simp_all

end InPlace

/-! ## What a step adds to the listing -/

theorem Entry.stepsOf_concat (body : List Entry) (e : Entry) :
    stepsOf (body ++ [e]) = stepsOf body ++ e.steps := by
  induction body with
  | nil => exact List.append_nil e.steps
  | cons d body ih => rw [List.cons_append, stepsOf, stepsOf, ih, List.append_assoc]

namespace Scopes

/-- **The scopes `t` list what `s` list and then these steps**, with the services or with the
entries, and their frames are in place. -/
structure Lists (s : Scopes) (service : Bool) (steps : List ScopeStep) (t : Scopes) : Prop where
  inPlace : InPlace t.frames
  entrySteps : t.entrySteps = s.entrySteps ++ if service then [] else steps
  serviceSteps : t.serviceSteps = s.serviceSteps ++ if service then steps else []

variable {s t : Scopes} {f : Frame} {fs : List Frame} {es : List Entry} {ss : List Service}

theorem entrySteps_cons (f : Frame) (fs : List Frame) (es : List Entry) (ss : List Service) :
    entrySteps ⟨f :: fs, es, ss⟩ = entrySteps ⟨fs, es, ss⟩ ++ f.entrySteps := by
  simp [entrySteps]

theorem serviceSteps_cons (f : Frame) (fs : List Frame) (es : List Entry) (ss : List Service) :
    serviceSteps ⟨f :: fs, es, ss⟩ = serviceSteps ⟨fs, es, ss⟩ ++ f.serviceSteps := by
  simp [serviceSteps]

/-- Nothing done lists nothing. -/
theorem lists_self (h : InPlace s.frames) (service : Bool) : s.Lists service [] s :=
  ⟨h, by simp, by simp⟩

/-- An entry of an open enum is listed with its step. -/
theorem lists_enum {name : String} {body : List EnumEntry}
    (h : InPlace (.enum name body :: fs)) (e : EnumEntry) :
    Lists ⟨.enum name body :: fs, es, ss⟩ false [e.step]
      ⟨.enum name (body ++ [e]) :: fs, es, ss⟩ := by
  refine ⟨h, ?_, ?_⟩
  · rw [entrySteps_cons, entrySteps_cons]
    simp [Frame.entrySteps]
  · rw [serviceSteps_cons, serviceSteps_cons]
    exact (List.append_nil _).symm

/-- An entry of an open service is listed with its step. -/
theorem lists_service {name : String} {body : List ServiceEntry}
    (h : InPlace (.service name body :: fs)) (e : ServiceEntry) :
    Lists ⟨.service name body :: fs, es, ss⟩ true [e.step]
      ⟨.service name (body ++ [e]) :: fs, es, ss⟩ := by
  refine ⟨h, ?_, ?_⟩
  · rw [entrySteps_cons, entrySteps_cons]
    exact (List.append_nil _).symm
  · rw [serviceSteps_cons, serviceSteps_cons]
    simp [Frame.serviceSteps]

/-- A container that opens is listed, unless it is skipped. -/
theorem lists_enter (h : InPlace s.frames) (kind : FrameKind) (name : String) :
    s.Lists (kind = .service) (ScopeStep.kept s.current (.enter kind name))
      (s.enter kind name) := by
  obtain ⟨frames, es, ss⟩ := s
  refine ⟨⟨?_, h⟩, ?_, ?_⟩
  · rw [Frame.kind_ofKind]
    exact placed_placed _ kind
  · rw [enter, entrySteps_cons, place, ScopeStep.kept]
    rcases placed_eq_or (current ⟨frames, es, ss⟩) kind with same | skipped
    · rw [same]
      cases kind <;> rfl
    · rw [skipped, if_pos rfl, ite_self]
      rfl
  · rw [enter, serviceSteps_cons, place, ScopeStep.kept]
    rcases placed_eq_or (current ⟨frames, es, ss⟩) kind with same | skipped
    · rw [same]
      cases kind <;> rfl
    · rw [skipped, if_pos rfl, ite_self]
      rfl

/-- An entry that is attached is listed with its steps. -/
theorem lists_attach (h : InPlace s.frames)
    (takes : s.current = none ∨ s.current = some .message) (e : Entry) :
    s.Lists false e.steps (s.attach e) := by
  obtain ⟨frames, es, ss⟩ := s
  match frames, takes with
  | [], _ =>
    refine ⟨h, ?_, (List.append_nil _).symm⟩
    simp [entrySteps, attach, Entry.stepsOf_concat]
  | .message name body :: fs, _ =>
    refine ⟨h, ?_, ?_⟩
    · rw [attach, entrySteps_cons, entrySteps_cons, Frame.entrySteps, Entry.stepsOf_concat]
      simp [Frame.entrySteps]
    · rw [attach, serviceSteps_cons, serviceSteps_cons]
      exact (List.append_nil _).symm

/-- What hands on all that is listed of the innermost frame, and one step more, lists that step. -/
theorem Lists.of_cons {step : ScopeStep} (h : Lists ⟨fs, es, ss⟩ false (f.entrySteps ++ [step]) t)
    (none : f.serviceSteps = []) : Lists ⟨f :: fs, es, ss⟩ false [step] t := by
  refine ⟨h.inPlace, ?_, ?_⟩
  · rw [h.entrySteps, entrySteps_cons, List.append_assoc]
    rfl
  · rw [h.serviceSteps, serviceSteps_cons, none, List.append_nil]
    rfl

/-- A frame that closes is listed with the step that closes it. -/
theorem lists_leave (h : InPlace s.frames) (left : s.leave = some t) (place : Option Place) :
    s.Lists (s.current = some .service) (ScopeStep.kept s.current (.leave place)) t := by
  obtain ⟨frames, es, ss⟩ := s
  match frames, left with
  | .message name body :: fs, rfl =>
    have takes := placed_message_iff.1 h.1
    exact (lists_attach (s := ⟨fs, es, ss⟩) h.2 takes (.message name body)).of_cons rfl
  | .enum name body :: fs, rfl =>
    have takes := placed_enum_iff.1 h.1
    exact (lists_attach (s := ⟨fs, es, ss⟩) h.2 takes (.enum ⟨name, body⟩)).of_cons rfl
  | .service name body :: [], rfl =>
    refine ⟨h.2, ?_, ?_⟩
    · rw [entrySteps_cons, List.append_assoc]
      exact (List.append_nil _).symm
    · simp [serviceSteps, Frame.serviceSteps, Service.steps, ScopeStep.kept, current, Frame.kind]
  | .service name body :: f :: fs, rfl => exact nomatch placed_service_iff.1 h.1
  | .skipped name :: fs, rfl =>
    refine ⟨h.2, ?_, ?_⟩
    · rw [entrySteps_cons, List.append_assoc]
      exact (List.append_nil _).symm
    · rw [serviceSteps_cons, List.append_assoc]
      exact (List.append_nil _).symm

theorem lists_addSetting (h : InPlace s.frames) (o : Setting) :
    s.Lists (s.current = some .service) (ScopeStep.kept s.current (.addSetting o))
      (s.answerTo (s.addSetting o)).2 := by
  obtain ⟨frames, es, ss⟩ := s
  match frames with
  | [] => exact lists_attach h (.inl rfl) (.setting o)
  | .message name body :: fs => exact lists_attach h (.inr rfl) (.setting o)
  | .enum name body :: fs => exact lists_enum h (.setting o)
  | .service name body :: fs => exact lists_service h (.setting o)
  | .skipped name :: fs => exact lists_self h _

/-- **What a step adds to the listing.** -/
theorem lists_apply (h : InPlace s.frames) (step : ScopeStep) :
    s.Lists (step.ofService s.current) (step.kept s.current) (s.apply step).2 := by
  cases step with
  | enter kind name => exact lists_enter h kind name
  | leave place =>
    obtain ⟨_ | ⟨f, fs⟩, es, ss⟩ := s
    · exact lists_self h _
    · rw [apply]
      obtain ⟨t, left⟩ : ∃ t, leave ⟨f :: fs, es, ss⟩ = some t := by cases f <;> exact ⟨_, rfl⟩
      rw [left]
      exact lists_leave h left place
  | addSetting o => exact lists_addSetting h o
  | addField name type number repeated optional =>
    obtain ⟨_ | ⟨_ | _ | _ | _, fs⟩, es, ss⟩ := s
    case cons.message message body =>
      exact lists_attach h (.inr rfl) (.field ⟨name, type, number, _, repeated, optional⟩)
    all_goals exact lists_self h _
  | addEnumValue v =>
    obtain ⟨_ | ⟨_ | _ | _ | _, fs⟩, es, ss⟩ := s
    case cons.enum name body => exact lists_enum h (.value v)
    all_goals exact lists_self h _
  | addRpc r =>
    obtain ⟨_ | ⟨_ | _ | _ | _, fs⟩, es, ss⟩ := s
    case cons.service name body => exact lists_service h (.rpc r)
    all_goals exact lists_self h _

/-! ## What a run lists -/

theorem keptOf_cons (s : Scopes) (service : Bool) (step : ScopeStep) (steps : List ScopeStep) :
    s.keptOf service (step :: steps)
      = (if step.ofService s.current = service then step.kept s.current else [])
        ++ (s.apply step).2.keptOf service steps := by
  rw [keptOf, keptOf, trace, List.filter_append, List.map_append]
  split_ifs with same <;> simp [List.filter_map, Function.comp_def, same]

/-- **A run lists what is kept of it**, in its order. -/
theorem listing_run (h : InPlace s.frames) (steps : List ScopeStep) :
    InPlace (s.run steps).frames
      ∧ (s.run steps).entrySteps = s.entrySteps ++ s.keptOf false steps
      ∧ (s.run steps).serviceSteps = s.serviceSteps ++ s.keptOf true steps := by
  induction steps generalizing s with
  | nil => exact ⟨h, (List.append_nil _).symm, (List.append_nil _).symm⟩
  | cons step steps ih =>
    have first := lists_apply h step
    obtain ⟨inPlace, entry, service⟩ := ih first.inPlace
    refine ⟨inPlace, entry.trans ?_, service.trans ?_⟩
    · rw [first.entrySteps, keptOf_cons, List.append_assoc]
      cases step.ofService s.current <;> rfl
    · rw [first.serviceSteps, keptOf_cons, List.append_assoc]

end Scopes

end ProtoSchema
