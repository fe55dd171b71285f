import Mathlib.Computability.RegularExpressions
import ProtoSchema.Proofs.Scopes.Listing

/-!
# Proofs/Scopes/Untyped — containers that would take anything

The frames of `Scopes` have a type for each kind of container, so that no service can get a field.
A `NodeStack` has no such types: it hands whatever is closed to whatever container is below.  Both
go through the same states and give the same answers, since what is below is always a container that
takes the node: the frames form a word of messages and then perhaps an enum, or of a service, and
then of skipped frames (`wellFormed_run`).
-/

namespace ProtoSchema

/-! ## Nodes and containers of any kind -/

/-- **A node**, whatever it may stand in. -/
inductive Node
  | field (field : Field)
  | setting (setting : Setting)
  | value (value : EnumValue)
  | rpc (rpc : Rpc)
  | message (name : String) (body : List Node)
  | enum (name : String) (body : List Node)
  | service (name : String) (body : List Node)

/-- An open container with any nodes in it, and how many fields were added to it. -/
structure OpenNode where
  kind : FrameKind
  name : String
  nodes : List Node
  fields : Nat

/-- The node of a container that closes; of a skipped one there is none. -/
def OpenNode.node? (o : OpenNode) : Option Node :=
  match o.kind with
  | .message => some (.message o.name o.nodes)
  | .enum => some (.enum o.name o.nodes)
  | .service => some (.service o.name o.nodes)
  | .skipped => none

/-- **The open containers**, innermost first, and the finished nodes. -/
structure NodeStack where
  opened : List OpenNode
  entries : List Node
  services : List Node

namespace NodeStack

/-- Nothing open and nothing finished. -/
def empty : NodeStack := ⟨[], [], []⟩

/-- The kind of the innermost container. -/
def current (s : NodeStack) : Option FrameKind := s.opened.head?.map OpenNode.kind

/-- **Hands a node to the innermost container**, whatever its kind, or to the document. -/
def push (s : NodeStack) (n : Node) : NodeStack :=
  match s.opened with
  | [] => { s with entries := s.entries ++ [n] }
  | o :: os => { s with opened := { o with nodes := o.nodes ++ [n] } :: os }

/-- Opens a container, skipped where it cannot stand. -/
def enter (s : NodeStack) (kind : FrameKind) (name : String) : NodeStack :=
  { s with opened := ⟨Scopes.placed s.current kind, name, [], 0⟩ :: s.opened }

/-- Closes the innermost container and hands its node on. -/
def leave (s : NodeStack) : Option NodeStack :=
  match s.opened with
  | [] => none
  | o :: os => match o.node? with
    | none => some { s with opened := os }
    | some n =>
      if o.kind = .service then some { s with opened := os, services := s.services ++ [n] }
      else some (push { s with opened := os } n)

/-- Adds a field to a message, numbered by the fields added before it. -/
def addField (s : NodeStack) (name : String) (type : TypeRef) (number : Int)
    (repeated optional : Bool) : Option (Field × NodeStack) :=
  match s.opened with
  | [] => none
  | o :: os =>
    if o.kind = .message then
      let field := ⟨name, type, number, o.fields, repeated, optional⟩
      some (field, push { s with opened := { o with fields := o.fields + 1 } :: os } (.field field))
    else none

/-- Adds a node where `takes` says so. -/
def add (s : NodeStack) (takes : Bool) (n : Node) : ScopeAnswer × NodeStack :=
  if takes then (.added, s.push n) else (.refused, s)

/-- **Takes a step.** -/
def apply (s : NodeStack) : ScopeStep → ScopeAnswer × NodeStack
  | .enter kind name => (.entered (Scopes.placed s.current kind), s.enter kind name)
  | .leave place => match s.leave with
    | some s => (.left, s)
    | none => (.failed ⟨.strayClose, place⟩, s)
  | .addSetting o => s.add (s.current ≠ some .skipped) (.setting o)
  | .addField name type number repeated optional =>
    match s.addField name type number repeated optional with
    | some (field, s) => (.addedField field, s)
    | none => (.refused, s)
  | .addEnumValue v => s.add (s.current = some .enum) (.value v)
  | .addRpc r => s.add (s.current = some .service) (.rpc r)

/-- The stack after a list of steps. -/
def run (s : NodeStack) (steps : List ScopeStep) : NodeStack :=
  steps.foldl (fun s step => (s.apply step).2) s

end NodeStack

/-! ## Scopes as nodes -/

/-- An entry of an enum as a node. -/
def EnumEntry.node : EnumEntry → Node
  | .value v => .value v
  | .setting o => .setting o

/-- An entry of a service as a node. -/
def ServiceEntry.node : ServiceEntry → Node
  | .rpc r => .rpc r
  | .setting o => .setting o

mutual

/-- An entry as a node. -/
def Entry.node : Entry → Node
  | .field f => .field f
  | .setting o => .setting o
  | .enum d => .enum d.name (d.body.map EnumEntry.node)
  | .message name body => .message name (Entry.nodesOf body)

/-- A body as nodes. -/
def Entry.nodesOf : List Entry → List Node
  | [] => []
  | e :: es => e.node :: Entry.nodesOf es

end

/-- A service as a node. -/
def Service.node (s : Service) : Node := .service s.name (s.body.map ServiceEntry.node)

/-- A frame as an open container. -/
def Frame.opened : Frame → OpenNode
  | .message name body => ⟨.message, name, Entry.nodesOf body, (Entry.fields body).length⟩
  | .enum name body => ⟨.enum, name, body.map EnumEntry.node, 0⟩
  | .service name body => ⟨.service, name, body.map ServiceEntry.node, 0⟩
  | .skipped name => ⟨.skipped, name, [], 0⟩

/-- **The scopes without their types.** -/
def Scopes.untyped (s : Scopes) : NodeStack :=
  ⟨s.frames.map Frame.opened, Entry.nodesOf s.entries, s.services.map Service.node⟩

theorem Entry.nodesOf_eq_map (es : List Entry) : nodesOf es = es.map node := by
  induction es with
  | nil => rfl
  | cons e es ih => rw [nodesOf, ih, List.map_cons]

@[simp] theorem Frame.kind_opened (f : Frame) : f.opened.kind = f.kind := by
  cases f <;> rfl

@[simp] theorem Frame.opened_ofKind (kind : FrameKind) (name : String) :
    (ofKind kind name).opened = ⟨kind, name, [], 0⟩ := by
  cases kind <;> rfl

namespace Scopes

variable {s : Scopes}

@[simp] theorem current_untyped (s : Scopes) : s.untyped.current = s.current := by
  obtain ⟨_ | ⟨f, fs⟩, entries, services⟩ := s
  · rfl
  · exact congrArg some (Frame.kind_opened f)

/-! ## The same steps -/

/-- What is closed and attached is handed to a container that takes it. -/
theorem untyped_attach (takes : s.current = none ∨ s.current = some .message) {e : Entry}
    (other : e.field? = none) : s.untyped.push e.node = (s.attach e).untyped := by
  obtain ⟨frames, entries, services⟩ := s
  match frames, takes with
  | [], _ => simp [untyped, NodeStack.push, attach, Entry.nodesOf_eq_map]
  | .message name body :: fs, _ =>
    simp [untyped, NodeStack.push, attach, Entry.nodesOf_eq_map, Frame.opened, Entry.fields, other]

/-- What is added to an enum is handed to it. -/
theorem untyped_enum (name : String) (body : List EnumEntry) (e : EnumEntry) (fs : List Frame)
    (es : List Entry) (ss : List Service) :
    (untyped ⟨.enum name body :: fs, es, ss⟩).push e.node
      = untyped ⟨.enum name (body ++ [e]) :: fs, es, ss⟩ := by
  simp [untyped, NodeStack.push, Frame.opened]

/-- What is added to a service is handed to it. -/
theorem untyped_service (name : String) (body : List ServiceEntry) (e : ServiceEntry)
    (fs : List Frame) (es : List Entry) (ss : List Service) :
    (untyped ⟨.service name body :: fs, es, ss⟩).push e.node
      = untyped ⟨.service name (body ++ [e]) :: fs, es, ss⟩ := by
  simp [untyped, NodeStack.push, Frame.opened]

/-- A field gets the same number from the count as from the fields themselves. -/
theorem untyped_addField (s : Scopes) (name : String) (type : TypeRef) (number : Int)
    (repeated optional : Bool) :
    s.untyped.addField name type number repeated optional
      = (s.addField name type number repeated optional).map (Prod.map id untyped) := by
  obtain ⟨_ | ⟨_ | _ | _ | _, fs⟩, entries, services⟩ := s
  case cons.message message body =>
    simp [addField, NodeStack.addField, NodeStack.push, untyped, Frame.opened,
      Entry.nodesOf_eq_map, Entry.node, Entry.fields, Entry.field?]
  all_goals rfl

theorem untyped_leave (h : InPlace s.frames) : s.untyped.leave = s.leave.map untyped := by
  obtain ⟨frames, entries, services⟩ := s
  match frames with
  | [] | .skipped name :: fs => rfl
  | .message name body :: fs =>
    exact congrArg some (untyped_attach (s := ⟨fs, entries, services⟩) (e := .message name body)
      (placed_message_iff.1 h.1) rfl)
  | .enum name body :: fs =>
    exact congrArg some (untyped_attach (s := ⟨fs, entries, services⟩) (e := .enum ⟨name, body⟩)
      (placed_enum_iff.1 h.1) rfl)
  | .service name body :: fs =>
    simp [untyped, leave, NodeStack.leave, Frame.opened, OpenNode.node?, Service.node]

/-- **A step is the same with and without types.** -/
theorem untyped_apply (h : InPlace s.frames) (step : ScopeStep) :
    s.untyped.apply step = ((s.apply step).1, (s.apply step).2.untyped) := by
  cases step with
  | enter kind name =>
    simp [apply, NodeStack.apply, enter, NodeStack.enter, place, untyped, ← current_untyped]
  | leave place =>
    rw [apply, NodeStack.apply, untyped_leave h]
    cases s.leave <;> rfl
  | addSetting o =>
    obtain ⟨_ | ⟨_ | _ | _ | _, fs⟩, es, ss⟩ := s
    case nil =>
      exact congrArg (Prod.mk ScopeAnswer.added)
        (untyped_attach (s := ⟨[], es, ss⟩) (e := .setting o) (.inl rfl) rfl)
    case cons.message name body =>
      exact congrArg (Prod.mk ScopeAnswer.added)
        (untyped_attach (s := ⟨.message name body :: fs, es, ss⟩) (e := .setting o) (.inr rfl) rfl)
    case cons.enum name body =>
      exact congrArg (Prod.mk ScopeAnswer.added) (untyped_enum name body (.setting o) fs es ss)
    case cons.service name body =>
      exact congrArg (Prod.mk ScopeAnswer.added) (untyped_service name body (.setting o) fs es ss)
    case cons.skipped => rfl
  | addField name type number repeated optional =>
    rw [apply, NodeStack.apply, untyped_addField]
    cases s.addField name type number repeated optional <;> rfl
  | addEnumValue v =>
    obtain ⟨_ | ⟨_ | _ | _ | _, fs⟩, es, ss⟩ := s
    case cons.enum name body =>
      exact congrArg (Prod.mk ScopeAnswer.added) (untyped_enum name body (.value v) fs es ss)
    all_goals rfl
  | addRpc r =>
    obtain ⟨_ | ⟨_ | _ | _ | _, fs⟩, es, ss⟩ := s
    case cons.service name body =>
      exact congrArg (Prod.mk ScopeAnswer.added) (untyped_service name body (.rpc r) fs es ss)
    all_goals rfl

/-- **A run is the same with and without types.** -/
theorem untyped_run (h : InPlace s.frames) (steps : List ScopeStep) :
    s.untyped.run steps = (s.run steps).untyped := by
  induction steps generalizing s with
  | nil => rfl
  | cons step steps ih =>
    change (s.untyped.apply step).2.run steps = _
    rw [untyped_apply h]
    exact ih (lists_apply h step).inPlace

end Scopes

/-! ## Words of frames -/

section FrameWords

open RegularExpression

/-- The words of the containers that are kept: messages and then perhaps an enum, or a service. -/
def keptWords : RegularExpression FrameKind :=
  star (char .message) * (1 + char .enum) + char .service

/-- **The words of the open containers**, the outermost first: those kept and then those skipped. -/
def frameWords : RegularExpression FrameKind := keptWords * star (char .skipped)

variable {kind : FrameKind} {word : List FrameKind} {fs : List Frame}

theorem append_singleton_mem_star (h : word ∈ (star (char kind)).matches') :
    word ++ [kind] ∈ (star (char kind)).matches' := by
  have closed : (star (char kind)).matches' * {[kind]} ≤ (star (char kind)).matches' :=
    kstar_mul_le_kstar
  exact closed (Language.append_mem_mul h rfl)

theorem replicate_mem_star (kind : FrameKind) (n : ℕ) :
    List.replicate n kind ∈ (star (char kind)).matches' := by
  induction n with
  | zero => exact Language.nil_mem_kstar _
  | succ n ih =>
    rw [List.replicate_succ']
    exact append_singleton_mem_star ih

/-- What is kept may end in an enum, if that stands on messages. -/
theorem messages_mem_keptWords (messages : ∀ f ∈ fs, f.kind = .message) {last : List FrameKind}
    (ends : last ∈ (1 + char FrameKind.enum).matches') :
    (fs.map Frame.kind).reverse ++ last ∈ keptWords.matches' := by
  have same : (fs.map Frame.kind).reverse = List.replicate fs.length .message := by
    simpa [List.eq_replicate_iff] using messages
  rw [same]
  exact .inl (Language.append_mem_mul (replicate_mem_star _ _) ends)

theorem mem_frameWords_of_kept (h : word ∈ keptWords.matches') : word ∈ frameWords.matches' := by
  rw [← List.append_nil word]
  exact Language.append_mem_mul h (Language.nil_mem_kstar _)

/-- **The frames that are in place form such a word.** -/
theorem InPlace.mem_frameWords (h : InPlace fs) :
    (fs.map Frame.kind).reverse ∈ frameWords.matches' := by
  induction fs with
  | nil =>
    have messages : ∀ f ∈ ([] : List Frame), f.kind = .message := List.forall_mem_nil _
    exact mem_frameWords_of_kept (messages_mem_keptWords messages (.inl rfl))
  | cons f fs ih =>
    have first := h.1
    rw [List.map_cons, List.reverse_cons]
    cases kind : f.kind with rw [kind] at first
    | message =>
      have messages := h.2.forall_message (Scopes.placed_message_iff.1 first)
      simpa [kind] using mem_frameWords_of_kept
        (messages_mem_keptWords (List.forall_mem_cons.2 ⟨kind, messages⟩) (.inl rfl))
    | enum =>
      have messages := h.2.forall_message (Scopes.placed_enum_iff.1 first)
      exact mem_frameWords_of_kept (messages_mem_keptWords messages (.inr rfl))
    | service =>
      have bottom : fs = [] := by simpa using Scopes.placed_service_iff.1 first
      rw [bottom]
      exact mem_frameWords_of_kept (.inr rfl)
    | skipped =>
      obtain ⟨kept, hkept, skipped, hskipped, word⟩ := Language.mem_mul.1 (ih h.2)
      rw [← word, List.append_assoc]
      exact Language.append_mem_mul hkept (append_singleton_mem_star hskipped)

/-- What stands on an enum is skipped. -/
example : [FrameKind.message, .enum, .skipped] ∈ frameWords.matches'
    ∧ [FrameKind.enum, .message] ∉ frameWords.matches' := by
  decide +kernel

end FrameWords

/-! ## Well-formed stacks -/

/-- **The node may stand in a container of this kind**, and so may each node in it. -/
inductive Node.Fits : FrameKind → Node → Prop
  | field (f : Field) : Fits .message (.field f)
  | value (v : EnumValue) : Fits .enum (.value v)
  | rpc (r : Rpc) : Fits .service (.rpc r)
  | setting {kind : FrameKind} (kept : kind ≠ .skipped) (o : Setting) : Fits kind (.setting o)
  | message (name : String) {body : List Node} (fits : ∀ n ∈ body, Fits .message n) :
      Fits .message (.message name body)
  | enum (name : String) {body : List Node} (fits : ∀ n ∈ body, Fits .enum n) :
      Fits .message (.enum name body)

/-- **The containers form a word, and each holds only what fits there.** -/
structure NodeStack.WellFormed (s : NodeStack) : Prop where
  word : (s.opened.map OpenNode.kind).reverse ∈ frameWords.matches'
  fits : ∀ o ∈ s.opened, ∀ n ∈ o.nodes, n.Fits o.kind
  skipped : ∀ o ∈ s.opened, o.kind = .skipped → o.nodes = []
  entries : ∀ n ∈ s.entries, n.Fits .message ∧ ∀ f, n ≠ .field f
  services : ∀ n ∈ s.services, ∃ name body, n = .service name body ∧ ∀ m ∈ body, m.Fits .service

theorem EnumEntry.fits_node (e : EnumEntry) : e.node.Fits .enum := by
  cases e with
  | value v => exact .value v
  | setting o => exact .setting (by decide) o

theorem ServiceEntry.fits_node (e : ServiceEntry) : e.node.Fits .service := by
  cases e with
  | rpc r => exact .rpc r
  | setting o => exact .setting (by decide) o

mutual

theorem Entry.fits_node : (e : Entry) → e.node.Fits .message
  | .field f => .field f
  | .setting o => .setting (by decide) o
  | .enum d => .enum d.name (List.forall_mem_map.2 fun e _ => e.fits_node)
  | .message name body => .message name (fits_nodesOf body)

theorem Entry.fits_nodesOf : (body : List Entry) → ∀ n ∈ nodesOf body, n.Fits .message
  | [] => by simp [nodesOf]
  | e :: es => by
    rw [nodesOf]
    exact List.forall_mem_cons.2 ⟨e.fits_node, fits_nodesOf es⟩

end

theorem Frame.fits_opened (f : Frame) : ∀ n ∈ f.opened.nodes, n.Fits f.opened.kind := by
  cases f with
  | message name body => exact Entry.fits_nodesOf body
  | enum name body => exact List.forall_mem_map.2 fun e _ => e.fits_node
  | service name body => exact List.forall_mem_map.2 fun e _ => e.fits_node
  | skipped name => exact List.forall_mem_nil _

namespace Scopes

variable {s : Scopes}

/-- None of the finished entries is a field. -/
def FieldFree (s : Scopes) : Prop := ∀ e ∈ s.entries, e.field? = none

theorem fieldFree_attach (h : s.FieldFree) {e : Entry} (other : e.field? = none) :
    (s.attach e).FieldFree := by
  obtain ⟨frames, entries, services⟩ := s
  match frames with
  | [] => exact List.forall_mem_append.2 ⟨h, List.forall_mem_singleton.2 other⟩
  | .message _ _ :: _ | .enum _ _ :: _ | .service _ _ :: _ | .skipped _ :: _ => exact h

/-- **No step puts a field among the finished entries.** -/
theorem fieldFree_apply (h : s.FieldFree) (step : ScopeStep) : (s.apply step).2.FieldFree := by
  obtain ⟨frames, entries, services⟩ := s
  cases step with
  | enter kind name => exact h
  | leave place =>
    match frames with
    | [] | .service _ _ :: _ | .skipped _ :: _ => exact h
    | .message _ _ :: fs | .enum _ _ :: fs => exact fieldFree_attach (s := ⟨fs, _, _⟩) h rfl
  | addSetting o =>
    match frames with
    | [] => exact List.forall_mem_append.2 ⟨h, List.forall_mem_singleton.2 rfl⟩
    | .message _ _ :: _ | .enum _ _ :: _ | .service _ _ :: _ | .skipped _ :: _ => exact h
  | addField _ _ _ _ _ | addEnumValue _ | addRpc _ =>
    match frames with
    | [] | .message _ _ :: _ | .enum _ _ :: _ | .service _ _ :: _ | .skipped _ :: _ => exact h

theorem fieldFree_run (h : s.FieldFree) (steps : List ScopeStep) : (s.run steps).FieldFree := by
  induction steps generalizing s with
  | nil => exact h
  | cons step steps ih => exact ih (fieldFree_apply h step)

/-- Scopes in place are well formed without their types. -/
theorem wellFormed_untyped (h : InPlace s.frames) (fields : s.FieldFree) :
    s.untyped.WellFormed where
  word := by simpa [untyped, Function.comp_def] using h.mem_frameWords
  fits := List.forall_mem_map.2 fun f _ => f.fits_opened
  skipped := List.forall_mem_map.2 fun f _ kind => by
    cases f with
    | skipped name => rfl
    | message name body | enum name body | service name body => exact nomatch kind
  entries := by
    rw [untyped, Entry.nodesOf_eq_map]
    refine List.forall_mem_map.2 fun e mem => ⟨e.fits_node, ?_⟩
    cases e with
    | field f => exact nomatch fields _ mem
    | setting o | enum d | message name body => exact fun f field => nomatch field
  services := List.forall_mem_map.2 fun d _ =>
    ⟨d.name, _, rfl, List.forall_mem_map.2 fun e _ => e.fits_node⟩

end Scopes

namespace NodeStack

/-- **Every run without types is well formed**, and it is the run with types: the next step gets the
same answer. -/
theorem wellFormed_run (steps : List ScopeStep) :
    (empty.run steps).WellFormed ∧ empty.run steps = (Scopes.empty.run steps).untyped
      ∧ ∀ step, ((empty.run steps).apply step).1 = ((Scopes.empty.run steps).apply step).1 := by
  have same : empty.run steps = (Scopes.empty.run steps).untyped :=
    Scopes.untyped_run (s := Scopes.empty) trivial steps
  have inPlace := (Scopes.listing_run (s := Scopes.empty) trivial steps).1
  have fields : (Scopes.empty.run steps).FieldFree :=
    Scopes.fieldFree_run (s := Scopes.empty) (List.forall_mem_nil _) steps
  refine ⟨?_, same, fun step => ?_⟩
  · rw [same]
    exact Scopes.wellFormed_untyped inPlace fields
  · rw [same, Scopes.untyped_apply inPlace]

end NodeStack

end ProtoSchema
