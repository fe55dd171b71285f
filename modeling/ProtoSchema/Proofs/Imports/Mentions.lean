import ProtoSchema.Proofs.Imports.History
import ProtoSchema.Proofs.Scopes.Listing

/-!
# Proofs/Imports/Mentions — the references that statements make

A field that is read into a message mentions its type, and a method that is read into a service its
two types.  What the statements of a file mention is what its document refers to, in its order
(`part_mentions`), and it is what they resolve in the import table (`refs_importHistory`).
-/

namespace ProtoSchema

open TypeRef

/-! ## The references of a document -/

mutual

/-- The references of the fields of an entry, to any depth. -/
def Entry.refs : Entry → List TypeRef
  | .field f => [f.type]
  | .setting _ => []
  | .enum _ => []
  | .message _ body => Entry.refsOf body

/-- The references of the fields of a body, to any depth. -/
def Entry.refsOf : List Entry → List TypeRef
  | [] => []
  | e :: es => e.refs ++ Entry.refsOf es

end

/-- The references of a service's entry. -/
def ServiceEntry.refs : ServiceEntry → List TypeRef
  | .rpc r => [r.argument, r.result]
  | .setting _ => []

/-- The references of a service. -/
def Service.refs (s : Service) : List TypeRef := s.body.flatMap ServiceEntry.refs

/-- **The references of a document.** -/
def Document.refs (d : Document) : List TypeRef :=
  Entry.refsOf d.entries ++ d.services.flatMap Service.refs

theorem Entry.refsOf_append (xs ys : List Entry) :
    refsOf (xs ++ ys) = refsOf xs ++ refsOf ys := by
  induction xs with
  | nil => rfl
  | cons x xs ih => rw [List.cons_append, refsOf, refsOf, ih, List.append_assoc]

/-- The references that a step of the scopes brings. -/
def ScopeStep.refs : ScopeStep → List TypeRef
  | .addField _ type _ _ _ => [type]
  | .addRpc m => [m.argument, m.result]
  | _ => []

@[simp] theorem ScopeStep.refs_enter (kind : FrameKind) (name : String) :
    (enter kind name).refs = [] := rfl

@[simp] theorem ScopeStep.refs_leave (place : Option Place) : (leave place).refs = [] := rfl

mutual

/-- The steps of an entry bring its references. -/
theorem Entry.refs_steps : ∀ e : Entry, e.steps.flatMap ScopeStep.refs = e.refs
  | .field f => rfl
  | .setting o => rfl
  | .enum d => by
      have none : ∀ e : EnumEntry, e.step.refs = [] := fun e => by cases e <;> rfl
      simp [Entry.steps, Entry.refs, none]
  | .message name body => by simp [Entry.steps, Entry.refs, Entry.refs_stepsOf body]

/-- The steps of a body bring its references. -/
theorem Entry.refs_stepsOf : ∀ es : List Entry,
    (Entry.stepsOf es).flatMap ScopeStep.refs = Entry.refsOf es
  | [] => rfl
  | e :: es => by
      rw [Entry.stepsOf, Entry.refsOf, List.flatMap_append, Entry.refs_steps e,
        Entry.refs_stepsOf es]

end

theorem Service.refs_steps (s : Service) : s.steps.flatMap ScopeStep.refs = s.refs := by
  have same : ∀ e : ServiceEntry, e.step.refs = e.refs := fun e => by cases e <;> rfl
  simp [Service.steps, Service.refs, List.flatMap_map, same]

/-! ## Mentions -/

/-- **A reference as a statement makes it**, of a method or of a field. -/
structure Mention where
  ofRpc : Bool
  type : TypeRef
deriving Repr, DecidableEq

/-- **The references that a statement makes** where the innermost frame is of kind `current`. -/
def Statement.mentions (current : Option FrameKind) (s : Statement) : List Mention :=
  match s.kind with
  | .field =>
    if current = some .message then
      (FieldLine.ofTokens? s.tokens).toList.map fun l => ⟨false, ofToken l.type⟩
    else []
  | .rpc =>
    if current = some .service then
      (RpcLine.ofTokens? (rpcTokens s.text.toList)).toList.flatMap fun l =>
        [⟨true, ofToken l.argument⟩, ⟨true, ofToken l.result⟩]
    else []
  | _ => []

/-- The references that statements make, in order. -/
def Progress.mentions (p : Progress) : List String → List Mention
  | [] => []
  | text :: texts =>
    (Statement.ofText text).mentions p.draft.scopes.current
      ++ (p.next text).elim [] fun q => q.mentions texts

/-- **The references that statements make**, in the order of the statements. -/
def Document.mentions (texts : List String) : List Mention := Progress.start.mentions texts

/-- The references of methods among these, or those of fields. -/
def Mention.part (ofRpc : Bool) (ms : List Mention) : List TypeRef :=
  (ms.filter (·.ofRpc = ofRpc)).map Mention.type

theorem Mention.mem_of_mem_part {ofRpc : Bool} {ms : List Mention} {r : TypeRef}
    (h : r ∈ part ofRpc ms) : r ∈ ms.map Mention.type :=
  List.map_subset Mention.type (List.filter_subset_self ms) h

theorem Mention.part_append (ofRpc : Bool) (xs ys : List Mention) :
    part ofRpc (xs ++ ys) = part ofRpc xs ++ part ofRpc ys := by
  rw [part, List.filter_append, List.map_append]
  rfl

/-! ## Mentions and the scopes -/

namespace Scopes

variable {s : Scopes}

/-- The references listed with the services, or with the entries. -/
def listed (s : Scopes) (service : Bool) : List TypeRef :=
  (if service then s.serviceSteps else s.entrySteps).flatMap ScopeStep.refs

/-- The references that the kept steps of a run bring. -/
def mentions (s : Scopes) (steps : List ScopeStep) : List Mention :=
  (s.trace steps).flatMap fun x => x.2.refs.map (Mention.mk x.1)

theorem part_mentions (s : Scopes) (service : Bool) (steps : List ScopeStep) :
    Mention.part service (s.mentions steps)
      = (s.keptOf service steps).flatMap ScopeStep.refs := by
  rw [mentions, keptOf, Mention.part]
  induction s.trace steps with
  | nil => rfl
  | cons x xs ih =>
    rw [List.flatMap_cons, List.filter_append, List.map_append, ih]
    by_cases same : x.1 = service <;> simp [List.filter_map, Function.comp_def, same]

/-- **A run lists the references that its kept steps bring.** -/
theorem listed_run (h : InPlace s.frames) (steps : List ScopeStep) (service : Bool) :
    (s.run steps).listed service = s.listed service ++ Mention.part service (s.mentions steps) := by
  obtain ⟨-, entry, ofService⟩ := listing_run h steps
  rw [part_mentions, listed, listed]
  cases service
  · simp [entry]
  · simp [ofService]

theorem mentions_cons (s : Scopes) (step : ScopeStep) (steps : List ScopeStep) :
    s.mentions (step :: steps)
      = (step.kept s.current).flatMap (·.refs.map (Mention.mk (step.ofService s.current)))
        ++ (s.apply step).2.mentions steps := by
  rw [mentions, trace, List.flatMap_append, List.flatMap_map]
  rfl

/-- What is kept of a step brings what the step brings. -/
theorem refs_of_mem_kept {current : Option FrameKind} {step r : ScopeStep}
    (h : r ∈ step.kept current) : r.refs = step.refs := by
  cases step
  all_goals
    simp only [ScopeStep.kept, List.mem_ite_nil_left, List.mem_ite_nil_right,
      List.mem_singleton] at h
    obtain ⟨-, rfl⟩ := h
    rfl

/-- Steps that bring no references mention none. -/
theorem mentions_eq_nil (s : Scopes) {steps : List ScopeStep}
    (h : ∀ step ∈ steps, step.refs = []) : s.mentions steps = [] := by
  induction steps generalizing s with
  | nil => rfl
  | cons step steps ih =>
    obtain ⟨first, others⟩ := List.forall_mem_cons.1 h
    rw [mentions_cons, ih _ others, List.append_nil, List.flatMap_eq_nil_iff]
    intro r kept
    rw [refs_of_mem_kept kept, first]
    rfl

/-- A field that is read into a message mentions its type. -/
theorem mentions_addField {s : Scopes} (h : s.current = some .message) {name : String}
    {type : TypeRef} {number : Int} {repeated optional : Bool} :
    s.mentions [.addField name type number repeated optional] = [⟨false, type⟩] := by
  rw [mentions_cons, h]
  rfl

/-- A method that is read into a service mentions its two types. -/
theorem mentions_addRpc {s : Scopes} (h : s.current = some .service) {m : Rpc}
    {steps : List ScopeStep} (others : ∀ step ∈ steps, step.refs = []) :
    s.mentions (.addRpc m :: steps) = [⟨true, m.argument⟩, ⟨true, m.result⟩] := by
  rw [mentions_cons, mentions_eq_nil _ others, h]
  rfl

end Scopes

namespace Draft

variable {d : Draft} {previous : Option StatementKind} {s : Statement} {step : ScopeStep}

theorem refs_of_mem_bodySteps {kind : FrameKind} {name : String}
    (h : .scopes step ∈ bodySteps s kind name) : step.refs = [] := by
  unfold bodySteps at h
  split_ifs at h
  · obtain rfl := DraftStep.scopes.inj (List.mem_singleton.1 h)
    rfl
  · exact absurd h List.not_mem_nil

/-- Statements other than fields and methods bring no references. -/
theorem refs_of_mem_steps (field : s.kind ≠ .field) (rpc : s.kind ≠ .rpc)
    (h : .scopes step ∈ d.steps previous s) : step.refs = [] := by
  cases kind : s.kind <;> simp only [steps, kind] at h
  case field => exact absurd kind field
  case rpc => exact absurd kind rpc
  case message | enum | service => exact refs_of_mem_bodySteps h
  case setting =>
    obtain ⟨o, -, same⟩ := List.mem_map.1 h
    obtain rfl := DraftStep.scopes.inj same
    rfl
  case closing | block =>
    obtain rfl := DraftStep.scopes.inj (List.mem_singleton.1 h)
    rfl
  case comment => split_ifs at h <;> simp at h
  case version | package | importing | reserved => simp at h

theorem mentions_memberSteps (d : Draft) (s : Statement) (field : s.kind = .field) :
    d.scopes.mentions ((d.memberSteps s.tokens).filterMap DraftStep.scope?)
      = s.mentions d.scopes.current := by
  unfold Statement.mentions memberSteps
  rw [field]
  dsimp only
  split
  case h_1 message =>
    rw [if_pos message, fieldSteps]
    cases FieldLine.ofTokens? s.tokens with
    | none => rfl
    | some l => exact Scopes.mentions_addField message
  case h_2 enum =>
    rw [enum, if_neg (by simp)]
    cases EnumValue.ofTokens? s.tokens with
    | none => rfl
    | some v => exact d.scopes.mentions_eq_nil (by simp [DraftStep.scope?, ScopeStep.refs])
  case h_3 message _ => exact (if_neg message).symm

theorem mentions_rpcSteps (d : Draft) (s : Statement) (rpc : s.kind = .rpc)
    {kind : FrameKind} {name : String} :
    d.scopes.mentions ((d.rpcSteps (rpcTokens s.text.toList)
        ++ bodySteps s kind name).filterMap DraftStep.scope?)
      = s.mentions d.scopes.current := by
  have body : ∀ step ∈ (bodySteps s kind name).filterMap DraftStep.scope?, step.refs = [] :=
    fun step mem => refs_of_mem_bodySteps (DraftStep.mem_filterMap_scope?.1 mem)
  rw [Statement.mentions, rpc, rpcSteps, List.filterMap_append]
  cases RpcLine.ofTokens? (rpcTokens s.text.toList) with
  | none => exact (d.scopes.mentions_eq_nil body).trans (ite_self _).symm
  | some l =>
    dsimp only
    split_ifs with service
    · exact Scopes.mentions_addRpc service body
    · exact d.scopes.mentions_eq_nil body

/-- **A statement mentions what the steps of the scopes bring.** -/
theorem mentions_steps (d : Draft) (previous : Option StatementKind) (s : Statement) :
    d.scopes.mentions ((d.steps previous s).filterMap DraftStep.scope?)
      = s.mentions d.scopes.current := by
  cases kind : s.kind
  case field =>
    rw [steps, kind]
    exact mentions_memberSteps d s kind
  case rpc =>
    rw [steps, kind]
    exact mentions_rpcSteps d s kind
  all_goals
    rw [Statement.mentions, kind]
    refine d.scopes.mentions_eq_nil fun step mem => ?_
    exact refs_of_mem_steps (by simp [kind]) (by simp [kind])
      (DraftStep.mem_filterMap_scope?.1 mem)

end Draft

namespace Progress

variable {p q : Progress} {text : String} {texts : List String}

theorem mentions_cons_of_next (h : p.next text = some q) :
    p.mentions (text :: texts)
      = (Statement.ofText text).mentions p.draft.scopes.current ++ q.mentions texts := by
  rw [mentions, h]
  rfl

/-- **A run lists the references that its statements make.** -/
theorem listed_run (inPlace : InPlace p.draft.scopes.frames) (h : p.run texts = some q)
    (service : Bool) :
    q.draft.scopes.listed service
      = p.draft.scopes.listed service ++ Mention.part service (p.mentions texts) := by
  induction texts generalizing p with
  | nil =>
    obtain rfl := Option.some.inj h
    exact (List.append_nil _).symm
  | cons text texts ih =>
    obtain ⟨r, step, rest⟩ := run_cons_eq_some_iff.1 h
    have scopes : r.draft.scopes = _ :=
      (congrArg Draft.scopes (draft_of_next step)).trans (p.draft.scopes_run _)
    have kept : InPlace r.draft.scopes.frames := by
      rw [scopes]
      exact (Scopes.listing_run inPlace _).1
    rw [ih kept rest, mentions_cons_of_next step, Mention.part_append, ← List.append_assoc,
      ← Draft.mentions_steps p.draft p.previous, ← Scopes.listed_run inPlace, ← scopes]

end Progress

/-- **The statements of a document make the references that it holds**, those of fields in the order
of the entries and those of methods in the order of the services. -/
theorem Document.part_mentions {texts : List String} {d : Document}
    (h : ofStatements texts = .ok d) :
    Mention.part false (mentions texts) = Entry.refsOf d.entries
      ∧ Mention.part true (mentions texts) = d.services.flatMap Service.refs := by
  obtain ⟨p, run, finished⟩ := ofStatements_eq_ok_iff.1 h
  obtain ⟨frames, rfl⟩ := Draft.finish_eq_ok_iff.1 finished
  have listed := Progress.listed_run (p := .start) trivial run
  constructor
  · refine (listed false).symm.trans ?_
    simp [Scopes.listed, Scopes.entrySteps, frames, Entry.refs_stepsOf]
  · refine (listed true).symm.trans ?_
    simp [Scopes.listed, Scopes.serviceSteps, frames, List.flatMap_assoc, Service.refs_steps]

/-! ## Mentions and the import table -/

/-- The reference that a step resolves. -/
def ImportStep.ref? : ImportStep → Option TypeRef
  | .resolve token => some (ofToken token)
  | _ => none

/-- **A statement resolves what it mentions.** -/
theorem Draft.refs_importSteps (d : Draft) (previous : Option StatementKind) (s : Statement) :
    (d.importSteps previous s).filterMap ImportStep.ref?
      = (s.mentions d.scopes.current).map Mention.type := by
  cases kind : s.kind <;> simp only [importSteps, Statement.mentions, kind]
  case importing => cases argument? s.tokens <;> rfl
  case comment =>
    split_ifs
    · cases annotatedPackage? s.text <;> rfl
    · rfl
  case field => cases FieldLine.ofTokens? s.tokens <;> dsimp only <;> split_ifs <;> rfl
  case rpc =>
    cases RpcLine.ofTokens? (rpcTokens s.text.toList) <;> dsimp only <;> split_ifs <;> rfl
  all_goals rfl

theorem Progress.refs_history (p : Progress) (texts : List String) :
    (p.history texts).filterMap ImportStep.ref? = (p.mentions texts).map Mention.type := by
  induction texts generalizing p with
  | nil => rfl
  | cons text texts ih =>
    rw [history, mentions, List.filterMap_append, List.map_append, Draft.refs_importSteps]
    cases p.next text with
    | none => rfl
    | some q => exact congrArg _ (ih q)

namespace Document

variable {texts : List String} {d : Document}

/-- **The references that statements make are those that are resolved.** -/
theorem refs_importHistory (texts : List String) :
    (importHistory texts).filterMap ImportStep.ref? = (mentions texts).map Mention.type :=
  Progress.refs_history .start texts

/-- **The imports of a document are made by its history, and its references resolved in it.** -/
theorem history_of_ofStatements (h : ofStatements texts = .ok d) :
    d.imports = (ImportTable.empty.run (importHistory texts)).entries
      ∧ ∀ r ∈ d.refs, ∃ token, .resolve token ∈ importHistory texts ∧ ofToken token = r := by
  refine ⟨imports_of_ofStatements h, fun r hr => ?_⟩
  obtain ⟨fields, methods⟩ := part_mentions h
  have mentioned : r ∈ (mentions texts).map Mention.type := by
    rw [refs, ← fields, ← methods] at hr
    rcases List.mem_append.1 hr with hr | hr
    · exact Mention.mem_of_mem_part hr
    · exact Mention.mem_of_mem_part hr
  rw [← refs_importHistory] at mentioned
  obtain ⟨step, mem, ref⟩ := List.mem_filterMap.1 mentioned
  cases step with
  | resolve token => exact ⟨token, mem, Option.some.inj ref⟩
  | register path | rekeyLast name => exact nomatch ref

/-- **If imports come first, every reference is noted where its qualifier says.** -/
theorem usedAs_of_importsFirst (first : ImportsFirst texts) (h : ofStatements texts = .ok d)
    {n q : String} (hr : ⟨n, some q⟩ ∈ d.refs) (named : q ∈ d.importNames) :
    ImportTable.UsedAs (importHistory texts) q n := by
  obtain ⟨imports, resolved⟩ := history_of_ofStatements h
  obtain ⟨token, step, ref⟩ := resolved _ hr
  obtain ⟨front, back, split, moves, resolves⟩ := exists_importHistory_split first h
  rw [importNames, imports] at named
  rw [split] at step named ⊢
  have later : .resolve token ∈ back := by
    rcases List.mem_append.1 step with step | step
    · exact absurd (moves _ step) (by simp [ImportTable.isResolve])
    · exact step
  exact ImportTable.usedAs_of_resolves_last resolves later ref named

end Document

end ProtoSchema
