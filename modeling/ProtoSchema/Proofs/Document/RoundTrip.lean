import ProtoSchema.Proofs.Document.Progress
import ProtoSchema.Proofs.Document.SourceReading

/-!
# Proofs/Document/RoundTrip — a canonical source reads back

Read where it may stand, the source of an entry attaches that entry to what is open
(`Entry.reads_source`), and the source of a service adds the service (`Service.reads_source`).  So
the source of a canonical document is read as that document (`ofText_source`).
-/

namespace ProtoSchema

open Text Source

/-! ## Reading lines into a draft -/

/-- **The lines take the draft `d` to `e`**, whatever was read before them. -/
def Draft.Reads (d : Draft) (lines : List SourceLine) (e : Draft) : Prop :=
  ∀ previous, ∃ last, Progress.run ⟨d, previous⟩ (lines.map SourceLine.statement) = some ⟨e, last⟩

/-- The draft with one more frame open. -/
def Draft.within (d : Draft) (f : Frame) : Draft :=
  { d with scopes := { d.scopes with frames := f :: d.scopes.frames } }

theorem isIdentifier_message : isIdentifier "message" = true := by decide

theorem isIdentifier_enum : isIdentifier "enum" = true := by decide

theorem isIdentifier_service : isIdentifier "service" = true := by decide

namespace Draft

variable {d e f g : Draft} {l : SourceLine} {xs ys : List SourceLine} {name : String}

theorem Reads.nil (d : Draft) : d.Reads [] d := ReadsTexts.nil d

theorem Reads.append (h : d.Reads xs e) (h' : e.Reads ys f) : d.Reads (xs ++ ys) f := by
  have both := ReadsTexts.append h h'
  rwa [← List.map_append] at both

/-- Members whose lines add them one by one are added by the lines of all of them. -/
theorem Reads.flatMap {α : Type} {p : List α → Draft} {s : α → List SourceLine} {l : List α}
    (h : ∀ a ∈ l, ∀ body, (p body).Reads (s a) (p (body ++ [a]))) (body : List α) :
    (p body).Reads (l.flatMap s) (p (body ++ l)) := by
  have all := ReadsTexts.flatMap h body
  rwa [← List.map_flatMap] at all

theorem reads_of_accept (h : ∀ previous,
    (d.accept previous (Statement.ofText l.statement)).map Accepted.draft = some e) :
    d.Reads [l] e := readsTexts_of_accept h

theorem Reads.block {head : List String} (opens : d.Reads [.opening head] e) (body : e.Reads xs f)
    (closes : f.Reads [.closing] g) : d.Reads (SourceLine.block head xs) g :=
  opens.append (body.append closes)

theorem reads_closing {s : Scopes} (h : d.scopes.leave = some s) :
    d.Reads [.closing] { d with scopes := s } :=
  reads_of_accept fun _ => by
    rw [SourceLine.statement, ofText_closing]
    change (d.acceptClosing).map Accepted.draft = _
    rw [acceptClosing, h]
    rfl

/-- A keyword and a name open a frame where it can stand. -/
theorem reads_head {keyword : String} {kind : FrameKind} (hk : isIdentifier keyword = true)
    (hn : isIdentifier name = true) (placed : d.scopes.place kind = kind)
    (opener : (StatementKind.ofTokens [keyword, name]).isOpener = true)
    (accepts : ∀ previous s, s.kind = StatementKind.ofTokens [keyword, name] →
      d.accept previous s = some (d.acceptContainer kind s)) :
    d.Reads [.opening [keyword, name]] (d.within (Frame.ofKind kind name)) := by
  have read := ofText_head (isToken_of_mem_head hk hn) opener
  have entered : d.enter kind name = d.within (Frame.ofKind kind name) := by
    rw [enter, Scopes.enter, placed]
    rfl
  refine reads_of_accept fun previous => ?_
  rw [read, accepts previous _ rfl, ← entered]
  rfl

end Draft

/-! ## Options and values -/

theorem Setting.reads_source {o : Setting} {d : Draft} {s : Scopes} (h : o.isCanonical = true)
    (taken : d.scopes.addSetting o = some s) : d.Reads [o.source] { d with scopes := s } := by
  have read := ofText_ended (Setting.isToken_of_mem h)
  refine Draft.reads_of_accept fun previous => ?_
  rw [Setting.source, read]
  change some (d.withScopes (d.scopes.addSetting o)).draft = _
  rw [taken]
  rfl

namespace EnumEntry

variable {d : Draft} {name : String}

theorem reads_source {e : EnumEntry} (h : e.isCanonical = true) (body : List EnumEntry) :
    (d.within (.enum name body)).Reads [e.source] (d.within (.enum name (body ++ [e]))) := by
  cases e with
  | setting o => exact Setting.reads_source h rfl
  | value v =>
    have read := ofText_ended (EnumValue.isToken_of_mem h)
    refine Draft.reads_of_accept fun previous => ?_
    rw [source, EnumValue.source, read, EnumValue.ofTokens_words_kind h]
    change some (Draft.acceptEnumValue _ [v.name, "=", toString v.number]).draft = _
    rw [Draft.acceptEnumValue, EnumValue.ofTokens_words h]
    rfl

/-- The lines of an enum's body add its entries to the frame of the enum. -/
theorem reads_sourceOf {es : List EnumEntry} (h : ∀ e ∈ es, e.isCanonical = true) :
    (d.within (.enum name [])).Reads (es.map source) (d.within (.enum name es)) := by
  rw [List.map_eq_flatMap]
  exact Draft.Reads.flatMap (p := fun body => d.within (.enum name body))
    (fun e he => reads_source (h e he)) []

end EnumEntry

theorem EnumDecl.reads_source {decl : EnumDecl} {d : Draft} (h : decl.isCanonical = true)
    (placed : d.scopes.place .enum = .enum) :
    d.Reads decl.source { d with scopes := d.scopes.attach (.enum decl) } := by
  simp only [isCanonical, Bool.and_eq_true, List.all_eq_true] at h
  have head := Draft.reads_head isIdentifier_enum h.1 placed rfl
    fun _ _ hs => by rw [Draft.accept, hs]; rfl
  exact head.block (EnumEntry.reads_sourceOf h.2) (Draft.reads_closing rfl)

/-! ## Methods and services -/

@[simp] theorem ImportTable.use_empty (r : TypeRef) : ImportTable.empty.use r = .empty := by
  obtain ⟨name, _ | qualifier⟩ := r <;> rfl

theorem ImportTable.resolve_empty {r : TypeRef} (h : r.isCanonical = true) :
    ImportTable.empty.resolve r.dotted = (r, .empty) := by
  rw [resolve, TypeRef.ofToken_dotted h, use_empty]

namespace ServiceEntry

variable {d : Draft} {name : String}

theorem reads_source {e : ServiceEntry} (h : e.isCanonical = true) (clean : d.imports = .empty)
    (body : List ServiceEntry) :
    (d.within (.service name body)).Reads [e.source] (d.within (.service name (body ++ [e]))) := by
  cases e with
  | setting o => exact Setting.reads_source h rfl
  | rpc r =>
    obtain ⟨ts, read⟩ := Rpc.ofText_statement h
    have tokens := Rpc.rpcTokens_statement h
    simp only [isCanonical, Rpc.isCanonical, TypeRef.isCanonicalInRpc, Bool.and_eq_true] at h
    obtain ⟨⟨-, argument, -⟩, result, -⟩ := h
    have argument := ImportTable.resolve_empty argument
    have result := ImportTable.resolve_empty result
    rw [← clean] at argument result
    refine Draft.reads_of_accept fun previous => ?_
    rw [source, read]
    change some (Draft.acceptRpc _ ⟨.rpc, ts, r.source.statement, false⟩).draft = _
    have imports : (d.within (.service name body)).imports = d.imports := rfl
    have current : (d.within (.service name body)).scopes.current = some .service := rfl
    simp only [Draft.acceptRpc, tokens, RpcLine.ofTokens?, imports, current, argument, result,
      if_true, Bool.false_eq_true, if_false]
    rfl

/-- The lines of a service's body add its entries to the frame of the service. -/
theorem reads_sourceOf {es : List ServiceEntry} (h : ∀ e ∈ es, e.isCanonical = true)
    (clean : d.imports = .empty) :
    (d.within (.service name [])).Reads (es.map source) (d.within (.service name es)) := by
  rw [List.map_eq_flatMap]
  exact Draft.Reads.flatMap (p := fun body => d.within (.service name body))
    (fun e he => reads_source (h e he) clean) []

end ServiceEntry

theorem Service.reads_source {s : Service} {d : Draft} (h : s.isCanonical = true)
    (clean : d.imports = .empty) (top : d.scopes.frames = []) :
    d.Reads s.source
      { d with scopes := { d.scopes with services := d.scopes.services ++ [s] } } := by
  simp only [isCanonical, Bool.and_eq_true, List.all_eq_true] at h
  have placed : d.scopes.place .service = .service := by
    rw [Scopes.place, Scopes.current, top]
    rfl
  have head := Draft.reads_head isIdentifier_service h.1 placed rfl
    fun _ _ hs => by rw [Draft.accept, hs]; rfl
  exact head.block (ServiceEntry.reads_sourceOf h.2 clean) (Draft.reads_closing rfl)

/-! ## Entries

An entry stands at the top of a document or in a message, and a field in a message alone. -/

/-- In a body whose orders are ranks, a field's order is the number of fields before it. -/
theorem Entry.order_of_isRanked {f : Field} {body es : List Entry}
    (h : isRanked (body ++ .field f :: es) = true) : f.order = (fields body).length := by
  have split : fields (body ++ .field f :: es) = fields body ++ f :: fields es := by
    rw [fields, List.filterMap_append]
    rfl
  have ranks := of_decide_eq_true h
  rw [split, List.map_append, List.map_cons] at ranks
  have rank := congrArg (·[(fields body).length]?) ranks
  simpa [List.getElem?_append_right] using rank

/-- **The scopes take these entries**: a message is open whose fields they go on numbering, or no
frame is open and there is no field among them. -/
def Scopes.Takes (s : Scopes) (es : List Entry) : Prop :=
  match s.frames with
  | [] => Entry.fields es = []
  | .message _ body :: _ => Entry.isRanked (body ++ es) = true
  | _ => False

namespace Scopes

variable {s : Scopes} {e : Entry} {es : List Entry}

theorem foldl_attach_top (services : List Service) : ∀ (es entries : List Entry),
    es.foldl attach ⟨[], entries, services⟩ = ⟨[], entries ++ es, services⟩
  | [], entries => by rw [List.append_nil, List.foldl_nil]
  | e :: es, entries => by
      have first : attach ⟨[], entries, services⟩ e = ⟨[], entries ++ [e], services⟩ := rfl
      rw [List.foldl_cons, first, foldl_attach_top services es, List.append_assoc]
      rfl

theorem foldl_attach_message (s : Scopes) (name : String) (fs : List Frame) :
    ∀ es body, es.foldl attach { s with frames := .message name body :: fs }
      = { s with frames := .message name (body ++ es) :: fs }
  | [], body => by rw [List.append_nil, List.foldl_nil]
  | e :: es, body => by
      have first : attach { s with frames := .message name body :: fs } e
          = { s with frames := .message name (body ++ [e]) :: fs } := rfl
      rw [List.foldl_cons, first, foldl_attach_message s name fs es, List.append_assoc]
      rfl

/-- Scopes that took an entry take those after it. -/
theorem Takes.attach (h : s.Takes (e :: es)) : (s.attach e).Takes es := by
  obtain ⟨frames, entries, services⟩ := s
  match frames with
  | [] =>
    have none : Entry.fields (e :: es) = [] := h
    exact List.filterMap_eq_nil_iff.2 fun a ha =>
      List.filterMap_eq_nil_iff.1 none a (List.mem_cons_of_mem e ha)
  | .message name body :: fs =>
    have ranked : Entry.isRanked (body ++ e :: es) = true := h
    change Entry.isRanked ((body ++ [e]) ++ es) = true
    rwa [List.append_assoc]

theorem Takes.place (h : s.Takes es) {kind : FrameKind} (hk : kind = .message ∨ kind = .enum) :
    s.place kind = kind := by
  obtain ⟨frames, entries, services⟩ := s
  match frames with
  | [] => rcases hk with rfl | rfl <;> rfl
  | .message name body :: fs => rcases hk with rfl | rfl <;> rfl

/-- An option is attached like any entry. -/
theorem Takes.addSetting (h : s.Takes es) (o : Setting) :
    s.addSetting o = some (s.attach (.setting o)) := by
  obtain ⟨frames, entries, services⟩ := s
  match frames with
  | [] => rfl
  | .message name body :: fs => rfl

theorem Takes.current_of_field {f : Field} (h : s.Takes (.field f :: es)) :
    s.current = some .message := by
  obtain ⟨frames, entries, services⟩ := s
  match frames with
  | [] =>
    have none : f :: Entry.fields es = [] := h
    simp at none
  | .message name body :: fs => rfl

/-- A field is attached like any entry, its order being its rank. -/
theorem Takes.addField {f : Field} (h : s.Takes (.field f :: es)) :
    s.addField f.name f.type f.number f.repeated f.optional = some (f, s.attach (.field f)) := by
  obtain ⟨frames, entries, services⟩ := s
  match frames with
  | [] =>
    have none : f :: Entry.fields es = [] := h
    simp at none
  | .message name body :: fs =>
    have ranked : Entry.isRanked (body ++ .field f :: es) = true := h
    have order := Entry.order_of_isRanked ranked
    obtain ⟨fname, type, number, _, repeated, optional⟩ := f
    subst order
    rfl

end Scopes

theorem Field.reads_source {f : Field} {d : Draft} {es : List Entry} (h : f.isCanonical = true)
    (clean : d.imports = .empty) (taken : d.scopes.Takes (.field f :: es)) :
    d.Reads [f.source] { d with scopes := d.scopes.attach (.field f) } := by
  have words := Field.ofTokens_words h
  have read := Field.ofText_statement h
  simp only [Field.isCanonical, Bool.and_eq_true] at h
  obtain ⟨⟨⟨⟨-, type⟩, -⟩, -⟩, -⟩ := h
  have type := ImportTable.resolve_empty type
  rw [← clean] at type
  have current : d.scopes.current = some .message := taken.current_of_field
  refine Draft.reads_of_accept fun previous => ?_
  rw [read]
  change some (d.acceptMember f.words).draft = _
  rw [Draft.acceptMember, current]
  change some (d.acceptField f.words).draft = _
  simp only [Draft.acceptField, words, type, taken.addField]
  rfl

mutual

/-- **The source of an entry attaches the entry**, wherever it is taken. -/
theorem Entry.reads_source : ∀ {e : Entry} {d : Draft} {es : List Entry}, e.isCanonical = true →
    d.imports = .empty → d.scopes.Takes (e :: es) →
      d.Reads e.source { d with scopes := d.scopes.attach e }
  | .field _, _, _, h, clean, taken => Field.reads_source h clean taken
  | .setting o, _, _, h, _, taken => Setting.reads_source h (taken.addSetting o)
  | .enum _, _, _, h, _, taken => EnumDecl.reads_source h (taken.place (.inr rfl))
  | .message name body, d, es, h, clean, taken => by
      simp only [isCanonical, Bool.and_eq_true] at h
      obtain ⟨⟨named, ranked⟩, entries⟩ := h
      have head := Draft.reads_head isIdentifier_message named (taken.place (.inl rfl)) rfl
        fun _ _ hs => by rw [Draft.accept, hs]; rfl
      have inner := Entry.reads_sourceOf (d := d.within (.message name [])) entries clean ranked
      have all : body.foldl Scopes.attach (d.within (.message name [])).scopes
          = (d.within (.message name body)).scopes :=
        Scopes.foldl_attach_message d.scopes name d.scopes.frames body []
      rw [all] at inner
      exact head.block inner (Draft.reads_closing rfl)

/-- The sources of entries attach all of them. -/
theorem Entry.reads_sourceOf : ∀ {es : List Entry} {d : Draft}, Entry.areCanonical es = true →
    d.imports = .empty → d.scopes.Takes es →
      d.Reads (Entry.sourceOf es) { d with scopes := es.foldl Scopes.attach d.scopes }
  | [], d, _, _, _ => Draft.Reads.nil d
  | e :: es, d, h, clean, taken => by
      simp only [areCanonical, Bool.and_eq_true] at h
      have first := Entry.reads_source h.1 clean taken
      have others := Entry.reads_sourceOf (d := { d with scopes := d.scopes.attach e }) h.2 clean
        taken.attach
      exact first.append others

end

/-! ## Documents -/

/-- The sources of services add all of them to the document. -/
theorem Service.reads_sourceOf {ss : List Service} {d : Draft}
    (h : ∀ s ∈ ss, s.isCanonical = true) (clean : d.imports = .empty)
    (top : d.scopes.frames = []) :
    d.Reads (ss.flatMap Service.source)
      { d with scopes := { d.scopes with services := d.scopes.services ++ ss } } :=
  Draft.Reads.flatMap (p := fun body => { d with scopes := { d.scopes with services := body } })
    (fun s hs _ => Service.reads_source (h s hs) clean top) d.scopes.services

namespace Document

variable {d : Document}

/-- The line of the version sets it. -/
theorem reads_versionSource (h : d.version = "" ∨ isPlain d.version = true) :
    Draft.empty.Reads d.versionSource { Draft.empty with version := d.version } := by
  unfold versionSource
  split
  case isTrue empty =>
    rw [empty]
    exact Draft.Reads.nil Draft.empty
  case isFalse ne =>
    refine Draft.reads_of_accept fun previous => ?_
    rw [ofText_version (h.resolve_left ne)]
    rfl

/-- The line of the package sets it. -/
theorem reads_packageSource (h : d.package = "" ∨ isPlain d.package = true) {e : Draft}
    (unset : e.package = "") : e.Reads d.packageSource { e with package := d.package } := by
  unfold packageSource
  split
  case isTrue empty =>
    rw [empty, ← unset]
    exact Draft.Reads.nil e
  case isFalse ne =>
    have read := ofText_ended (isToken_of_mem_package (h.resolve_left ne))
    refine Draft.reads_of_accept fun previous => ?_
    rw [read]
    change some (e.setPackage d.package) = _
    simp [Draft.setPackage, unset]

/-- Reading the lines of a canonical document ends in the document, nothing left open. -/
theorem reads_sourceLines (h : d.isCanonical = true) :
    Draft.empty.Reads d.sourceLines
      ⟨d.version, d.package, .empty, ⟨[], d.entries, d.services⟩⟩ := by
  simp only [isCanonical, Bool.and_eq_true, Bool.or_eq_true, decide_eq_true_eq, List.all_eq_true,
    List.isEmpty_iff] at h
  obtain ⟨⟨⟨⟨⟨version, package⟩, -⟩, fields⟩, entries⟩, services⟩ := h
  have heading := (reads_versionSource version).append (reads_packageSource package rfl)
  have body := Entry.reads_sourceOf (d := ⟨d.version, d.package, .empty, .empty⟩) entries rfl fields
  have all : d.entries.foldl Scopes.attach .empty = ⟨[], d.entries, []⟩ :=
    Scopes.foldl_attach_top [] d.entries []
  rw [all] at body
  exact (heading.append body).append (Service.reads_sourceOf services rfl rfl)

/-- **A canonical document is what its source is read as.** -/
theorem ofText_source (d : Document) (h : d.isCanonical = true) : ofText d.source = .ok d := by
  obtain ⟨last, run⟩ := reads_sourceLines h none
  have imports : d.imports = [] := by
    simp only [isCanonical, Bool.and_eq_true, decide_eq_true_eq] at h
    obtain ⟨⟨⟨⟨-, imports⟩, -⟩, -⟩, -⟩ := h
    exact imports
  rw [ofText, statements_source h]
  refine ofStatements_eq_ok_iff.2 ⟨_, run, ?_⟩
  obtain ⟨version, package, _, entries, services⟩ := d
  subst imports
  rfl

/-- A document with every construct: an enum in a message, fields with and without modifier, a
qualified type, options and a service. -/
def shelf : Document where
  version := "proto3"
  package := "library.v1"
  imports := []
  entries := [
    .setting ⟨"java_package", "com.library"⟩,
    .message "Book" [
      .enum ⟨"Genre", [.value ⟨"NOVEL", 0⟩, .setting ⟨"allow_alias", "true"⟩,
        .value ⟨"ATLAS", -1⟩]⟩,
      .field ⟨"genre", ⟨"Genre", none⟩, 1, 0, false, false⟩,
      .message "Page" [.field ⟨"text", ⟨"string", none⟩, 1, 0, false, true⟩],
      .field ⟨"pages", ⟨"Page", some "library.v1.Book"⟩, 2, 1, true, false⟩]]
  services := [
    ⟨"Search", [.setting ⟨"deprecated", "false"⟩,
      .rpc ⟨"Find", ⟨"Query", some "common"⟩, ⟨"Book", none⟩⟩]⟩]

theorem ofText_source_shelf : shelf.isCanonical = true ∧ ofText shelf.source = .ok shelf :=
  have canonical : shelf.isCanonical = true := by decide +kernel
  ⟨canonical, ofText_source shelf canonical⟩

end Document

end ProtoSchema
