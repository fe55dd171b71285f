import ProtoSchema.Proofs.Document.Steps
import ProtoSchema.Proofs.Scopes.Untyped

/-!
# Proofs/Scopes/Ranks — the order of a field is its rank

The fields of a message carry the orders 0, 1, 2 and so on, however deep the message stands and
whether it is finished or still open: a step adds to the innermost frame alone, and what it adds is
a field with the next order or no field at all (`ranked_apply`).  A count of the fields that is kept
with each open container says the same (`orders_opened`).
-/

namespace ProtoSchema

/-! ## Bodies of messages -/

mutual

/-- The bodies of the messages of an entry, at any depth. -/
def Entry.bodies : Entry → List (List Entry)
  | .message _ body => body :: Entry.bodiesOf body
  | .field _ | .setting _ | .enum _ => []

/-- **The bodies of the messages among entries**, at any depth. -/
def Entry.bodiesOf : List Entry → List (List Entry)
  | [] => []
  | e :: es => e.bodies ++ Entry.bodiesOf es

end

/-- The bodies of an open message, as far as it is read, and of the messages in it. -/
def Frame.bodies : Frame → List (List Entry)
  | .message _ body => body :: Entry.bodiesOf body
  | .enum _ _ | .service _ _ | .skipped _ => []

/-- **The bodies of all messages of the scopes**, finished or open, at any depth. -/
def Scopes.bodies (s : Scopes) : List (List Entry) :=
  Entry.bodiesOf s.entries ++ s.frames.flatMap Frame.bodies

/-- **The fields of the body have the orders 0, 1, 2, …** -/
def Entry.Ranked (body : List Entry) : Prop :=
  (fields body).map Field.order = List.range (fields body).length

instance : DecidablePred Entry.Ranked := fun _ => inferInstanceAs (Decidable (_ = _))

/-- In every message, the order of a field is its rank. -/
def Scopes.Ranked (s : Scopes) : Prop := ∀ body ∈ s.bodies, Entry.Ranked body

namespace Entry

variable {body : List Entry} {e : Entry}

theorem bodiesOf_concat (body : List Entry) (e : Entry) :
    bodiesOf (body ++ [e]) = bodiesOf body ++ e.bodies := by
  induction body with
  | nil => exact List.append_nil e.bodies
  | cons d body ih => rw [List.cons_append, bodiesOf, bodiesOf, ih, List.append_assoc]

/-- What is added to a body is no field, or has the next order. -/
theorem ranked_concat (h : Ranked body) (next : ∀ f ∈ e.field?, f.order = (fields body).length) :
    Ranked (body ++ [e]) := by
  have split : fields (body ++ [e]) = fields body ++ e.field?.toList := by
    rw [fields, List.filterMap_append, List.filterMap_cons, ← fields]
    cases e.field? <;> rfl
  rw [Ranked] at h ⊢
  rw [split, List.map_append, List.length_append, h]
  cases field : e.field? with
  | none => simp
  | some f => simp [List.range_succ, next f field]

end Entry

/-! ## Steps -/

namespace Scopes

variable {s : Scopes} {f : Frame} {fs : List Frame} {es : List Entry} {ss : List Service}

theorem ranked_cons_iff :
    Ranked ⟨f :: fs, es, ss⟩ ↔ (∀ body ∈ f.bodies, Entry.Ranked body) ∧ Ranked ⟨fs, es, ss⟩ := by
  simp only [Ranked, bodies, List.flatMap_cons, List.forall_mem_append]
  exact and_left_comm

/-- An entry that is handed to the document brings its bodies. -/
theorem ranked_entries (h : Ranked ⟨[], es, ss⟩) {e : Entry}
    (inner : ∀ body ∈ e.bodies, Entry.Ranked body) : Ranked ⟨[], es ++ [e], ss⟩ := by
  simp only [Ranked, bodies, List.flatMap_nil, List.append_nil] at h ⊢
  rw [Entry.bodiesOf_concat]
  exact List.forall_mem_append.2 ⟨h, inner⟩

/-- So does one that is handed to an open message. -/
theorem ranked_message {name : String} {body : List Entry} {e : Entry}
    (h : Ranked ⟨.message name body :: fs, es, ss⟩)
    (inner : ∀ body ∈ e.bodies, Entry.Ranked body)
    (next : ∀ f ∈ e.field?, f.order = (Entry.fields body).length) :
    Ranked ⟨.message name (body ++ [e]) :: fs, es, ss⟩ := by
  obtain ⟨opened, rest⟩ := ranked_cons_iff.1 h
  obtain ⟨own, nested⟩ := List.forall_mem_cons.1 opened
  refine ranked_cons_iff.2 ⟨List.forall_mem_cons.2 ⟨Entry.ranked_concat own next, ?_⟩, rest⟩
  rw [Entry.bodiesOf_concat]
  exact List.forall_mem_append.2 ⟨nested, inner⟩

theorem ranked_attach (h : s.Ranked) {e : Entry} (inner : ∀ body ∈ e.bodies, Entry.Ranked body)
    (other : e.field? = none) : (s.attach e).Ranked := by
  obtain ⟨frames, es, ss⟩ := s
  match frames with
  | [] => exact ranked_entries h inner
  | .message name body :: fs => exact ranked_message h inner (by simp [other])
  | .enum _ _ :: _ | .service _ _ :: _ | .skipped _ :: _ => exact h

/-- **A step leaves every field its rank.** -/
theorem ranked_apply (h : s.Ranked) (step : ScopeStep) : (s.apply step).2.Ranked := by
  have none : ∀ body ∈ ([] : List (List Entry)), Entry.Ranked body := List.forall_mem_nil _
  obtain ⟨frames, es, ss⟩ := s
  cases step with
  | enter kind name =>
    refine ranked_cons_iff.2 ⟨?_, h⟩
    cases place ⟨frames, es, ss⟩ kind with
    | message => exact List.forall_mem_singleton.2 rfl
    | enum | service | skipped => exact none
  | leave place =>
    match frames with
    | [] => exact h
    | .message name body :: fs =>
      obtain ⟨opened, rest⟩ := ranked_cons_iff.1 h
      exact ranked_attach (e := .message name body) rest opened rfl
    | .enum name body :: fs =>
      exact ranked_attach (e := .enum ⟨name, body⟩) (ranked_cons_iff.1 h).2 none rfl
    | .service _ _ :: fs | .skipped _ :: fs => exact (ranked_cons_iff.1 h).2
  | addSetting o =>
    match frames with
    | [] => exact ranked_entries h none
    | .message name body :: fs => exact ranked_message (e := .setting o) h none nofun
    | .enum _ _ :: fs | .service _ _ :: fs =>
      exact ranked_cons_iff.2 ⟨none, (ranked_cons_iff.1 h).2⟩
    | .skipped _ :: fs => exact h
  | addField name type number repeated optional =>
    match frames with
    | .message message body :: fs =>
      refine ranked_message (e := .field ⟨name, type, number, _, repeated, optional⟩) h none ?_
      rintro f ⟨⟩
      rfl
    | [] | .enum _ _ :: _ | .service _ _ :: _ | .skipped _ :: _ => exact h
  | addEnumValue _ | addRpc _ =>
    match frames with
    | [] | .message _ _ :: _ | .skipped _ :: _ => exact h
    | .enum _ _ :: fs | .service _ _ :: fs =>
      exact ranked_cons_iff.2 ⟨none, (ranked_cons_iff.1 h).2⟩

/-- **A run leaves every field its rank.** -/
theorem ranked_run (h : s.Ranked) (steps : List ScopeStep) : (s.run steps).Ranked := by
  induction steps generalizing s with
  | nil => exact h
  | cons step steps ih => exact ih (ranked_apply h step)

theorem ranked_empty : empty.Ranked := List.forall_mem_nil _

end Scopes

/-! ## Counts -/

/-- The orders of the fields that were handed to the container. -/
def OpenNode.orders (o : OpenNode) : List Nat :=
  o.nodes.filterMap fun
    | .field f => some f.order
    | _ => none

/-- **The fields of an open container have the orders below its count.** -/
theorem Frame.orders_opened {f : Frame} (h : ∀ body ∈ f.bodies, Entry.Ranked body) :
    f.opened.orders = List.range f.opened.fields := by
  cases f with
  | message name body =>
    have own : Entry.Ranked body := h body List.mem_cons_self
    refine Eq.trans ?_ own
    rw [OpenNode.orders, opened, Entry.nodesOf_eq_map, List.filterMap_map, Entry.fields,
      List.map_filterMap]
    refine List.filterMap_congr fun e _ => ?_
    cases e <;> rfl
  | enum name body =>
    refine (List.filterMap_map ..).trans (List.filterMap_eq_nil_iff.2 fun e _ => ?_)
    cases e <;> rfl
  | service name body =>
    refine (List.filterMap_map ..).trans (List.filterMap_eq_nil_iff.2 fun e _ => ?_)
    cases e <;> rfl
  | skipped name => rfl

/-! ## Documents -/

/-- **A run of statements is a run of steps** of the draft that it starts from. -/
theorem Progress.exists_draft_run {texts : List String} : ∀ {p q : Progress},
    p.run texts = some q → ∃ steps, q.draft = p.draft.run steps := by
  induction texts with
  | nil =>
    rintro p q h
    obtain rfl := Option.some.inj h
    exact ⟨[], rfl⟩
  | cons text texts ih =>
    rintro p q h
    obtain ⟨r, step, rest⟩ := run_cons_eq_some_iff.1 h
    obtain ⟨later, made⟩ := ih rest
    refine ⟨p.draft.steps p.previous (Statement.ofText text) ++ later, ?_⟩
    rw [made, draft_of_next step, Draft.run_append]

namespace Document

/-- **The order of a field is its rank among the fields of its message**: in all messages that
any steps of the scopes lead to, finished or open, and in all messages of a document.  A count of
the fields kept with each open container stays in step with it. -/
theorem fields_ranked (steps : List ScopeStep) (texts : List String) :
    (∀ body ∈ (Scopes.empty.run steps).bodies, Entry.Ranked body)
      ∧ (∀ o ∈ (NodeStack.empty.run steps).opened, o.orders = List.range o.fields)
      ∧ ∀ d, ofStatements texts = .ok d → ∀ body ∈ Entry.bodiesOf d.entries, Entry.Ranked body := by
  have ranked := Scopes.ranked_run Scopes.ranked_empty
  refine ⟨ranked steps, ?_, ?_⟩
  · have same : NodeStack.empty.run steps = (Scopes.empty.run steps).untyped :=
      Scopes.untyped_run (s := Scopes.empty) trivial steps
    rw [same]
    refine List.forall_mem_map.2 fun f hf => Frame.orders_opened fun body mem => ?_
    exact ranked steps body (List.mem_append_right _ (List.mem_flatMap.2 ⟨f, hf, mem⟩))
  · intro d read body mem
    obtain ⟨p, run, finished⟩ := ofStatements_eq_ok_iff.1 read
    obtain ⟨-, rfl⟩ := Draft.finish_eq_ok_iff.1 finished
    obtain ⟨made, same⟩ := Progress.exists_draft_run run
    have scopes : p.draft.scopes = Scopes.empty.run (made.filterMap DraftStep.scope?) := by
      rw [same]
      exact Draft.scopes_run .empty made
    have finished := ranked (made.filterMap DraftStep.scope?)
    rw [← scopes] at finished
    exact finished body (List.mem_append_left _ mem)

/-- A message is open, with fields around a nested message, a skipped service and a value that is
refused. -/
def openSteps : List ScopeStep :=
  [.enter .message "M", .addField "a" ⟨"T", none⟩ 5 false false, .enter .message "N",
    .addSetting ⟨"o", "v"⟩, .addField "x" ⟨"T", none⟩ 1 true false, .leave none,
    .enter .service "S", .addField "y" ⟨"T", none⟩ 2 false false, .leave none,
    .addEnumValue ⟨"V", 0⟩, .addField "b" ⟨"T", none⟩ 3 false false]

/-- The body of that message. -/
def openBody : List Entry :=
  [.field ⟨"a", ⟨"T", none⟩, 5, 0, false, false⟩,
    .message "N" [.setting ⟨"o", "v"⟩, .field ⟨"x", ⟨"T", none⟩, 1, 0, true, false⟩],
    .field ⟨"b", ⟨"T", none⟩, 3, 1, false, false⟩]

/-- Statements of a message with a choice between its fields, in a message. -/
def nestedTexts : List String :=
  ["message M \x7b", "message N \x7b", "T a = 5", "oneof k \x7b", "T c = 1", "\x7d", "reserved 2",
    "option o = v", "T b = 3", "\x7d", "\x7d"]

/-- The body of the inner message. -/
def nestedBody : List Entry :=
  [.field ⟨"a", ⟨"T", none⟩, 5, 0, false, false⟩, .setting ⟨"o", "v"⟩,
    .field ⟨"b", ⟨"T", none⟩, 3, 1, false, false⟩]

/-- What stands between two fields does not count. -/
theorem fields_ranked_between :
    openBody ∈ (Scopes.empty.run openSteps).bodies ∧ Entry.Ranked openBody
      ∧ (∃ o ∈ (NodeStack.empty.run openSteps).opened, o.fields = 2 ∧ o.orders = [0, 1])
      ∧ ofStatements nestedTexts = .ok ⟨"", "", [], [.message "M" [.message "N" nestedBody]], []⟩
      ∧ nestedBody ∈ Entry.bodiesOf [.message "M" [.message "N" nestedBody]]
      ∧ Entry.Ranked nestedBody := by
  have opened : openBody ∈ (Scopes.empty.run openSteps).bodies := by decide +kernel
  have read : ofStatements nestedTexts
      = .ok ⟨"", "", [], [.message "M" [.message "N" nestedBody]], []⟩ := by decide +kernel
  have nested : nestedBody ∈ Entry.bodiesOf [.message "M" [.message "N" nestedBody]] := by
    decide +kernel
  obtain ⟨bodies, counts, documents⟩ := fields_ranked openSteps nestedTexts
  refine ⟨opened, bodies _ opened, ⟨_, List.mem_cons_self, rfl, ?_⟩, read, nested,
    documents _ read _ nested⟩
  exact counts _ List.mem_cons_self

end Document

end ProtoSchema
