import ProtoSchema.Proofs.Session.Leads
import ProtoSchema.Proofs.Session.Writes

/-!
# Proofs/Session/Conversion — a session converts its files one after the other

The conversion of a file writes what is known from the tree at the start, or fails and writes
nothing (`writes_convertFile`).  So a session goes from file to file and ends at the first one that
cannot be converted (`convertNames_fromLeft`).
-/

namespace ProtoSchema

open FilePath FileTree

/-! ## Stages of a conversion -/

section

variable {m : Type → Type} [Monad m] [Host m]

/-- Writes the dump of a document. -/
def writeDump (d : Document) (path : String) : ExceptT Failure m Unit :=
  match d.dump with
  | some text => writeTextFile path text
  | none => throw (.output .numberTooLong)

/-- Writes the output of a document. -/
def writeRendered (target : Target) (config : Config) (d : Document) (path : String) :
    ExceptT Failure m Unit :=
  match target.render d d.symbolTable config with
  | .ok text => writeOutput target config d path text
  | .error e => throw (.output e)

/-- **Emits a document**: its dump, if that is asked for, and its output. -/
def emit (verbose debug : Bool) (target : Target) (config : Config) (input output : String)
    (d : Document) : ExceptT Failure m Unit := do
  if debug then writeDump d (output ++ dumpSuffix)
  writeRendered target config d output
  report verbose (target.convertedLine input output)

/-- A conversion reads a document and emits it. -/
theorem convertFile_eq (verbose debug : Bool) (target : Target) (config : Config)
    (input output : String) :
    (convertFile verbose debug target config input output : ExceptT Failure m Unit)
      = readDocument verbose input >>= emit verbose debug target config input output := by
  unfold convertFile
  refine congrArg _ (funext fun d => ?_)
  unfold emit writeDump writeRendered
  cases target.render d d.symbolTable config <;> cases debug <;> cases d.dump <;> rfl

end

variable {t t' : FileTree} {path text : String} {d : Document} {target : Target} {config : Config}

namespace Leads

theorem readTextFile (t : FileTree) (path : String) :
    Leads (readTextFile path) t (t.textOf path) t := by
  refine (read t (normal path)).bind ?_
  unfold textOf
  cases t.read (normal path) with
  | error fault => exact throw _ t
  | ok bytes =>
    dsimp only
    cases String.fromUTF8? bytes with
    | none => exact throw _ t
    | some text => exact pure _ t

theorem readDocument (t : FileTree) (verbose : Bool) (path : String) :
    Leads (readDocument verbose path) t (t.document path) t := by
  have text := readTextFile t path
  unfold document
  cases known : t.textOf path with
  | error e =>
    rw [known] at text
    exact text.bind_error
  | ok text' =>
    rw [known] at text
    refine text.bind ((reports t verbose Note.line _).bind ?_)
    dsimp only [Document.ofText, Document.ofStatements]
    cases (Document.read (Source.statements text')).result with
    | error e => exact throw _ t
    | ok d => exact pure d t

/-- Writing puts a text in its place, -/
theorem writeTextFile {l : Location} (h : t.place (normal path) = .ok l) (text : String) :
    Leads (ProtoSchema.writeTextFile path text) t (.ok ()) (t.put l text) := by
  have written : t.write (normal path) text = .ok (t.put l text) := by
    rw [write_eq, h]
    rfl
  exact (write written).bind (pure () _)

/-- or fails if there is none. -/
theorem writeTextFile_error {fault : FileFault} (h : t.place (normal path) = .error fault)
    (text : String) : Leads (ProtoSchema.writeTextFile path text) t (.error (.file fault)) t := by
  have refused : t.write (normal path) text = .error fault := by
    rw [write_eq, h]
    rfl
  exact (write_error refused).bind (throw _ t)

end Leads

/-- **A run puts a text in its place**, or fails and writes nothing. -/
inductive Puts (x : ExceptT Failure (StateM World) Unit) (t : FileTree) :
    Except Failure (Location × String) → Prop
  | ok {f : Location × String} (h : Leads x t (.ok ()) (t.put f.1 f.2)) : Puts x t (.ok f)
  | error {e : Failure} (h : Leads x t (.error e) t) : Puts x t (.error e)

namespace Puts

theorem writeTextFile (t : FileTree) (path text : String) :
    Puts (writeTextFile path text) t (t.placed path text) := by
  cases place : t.place (normal path) with
  | ok l =>
    rw [placed_of_place place]
    exact .ok (Leads.writeTextFile place text)
  | error fault =>
    rw [placed_of_fault place]
    exact .error (Leads.writeTextFile_error place text)

theorem writeDump (t : FileTree) (d : Document) (path : String) :
    Puts (writeDump d path) t (t.dumped d path) := by
  unfold ProtoSchema.writeDump dumped
  cases d.dump with
  | none => exact .error (Leads.throw _ t)
  | some text => exact writeTextFile t path text

theorem writeRendered (whole : config.halfImports = false ∧ config.halfWrapper = false)
    (t : FileTree) (target : Target) (d : Document) (path : String) :
    Puts (writeRendered target config d path) t (t.rendered target config d path) := by
  unfold ProtoSchema.writeRendered rendered
  cases target.render d d.symbolTable config with
  | error e => exact .error (Leads.throw _ t)
  | ok text =>
    have half : target.takesHalf config d = false := by simp [Target.takesHalf, whole]
    dsimp only [writeOutput]
    rw [half, if_neg Bool.false_ne_true]
    exact writeTextFile t path text

end Puts

/-! ## One file -/

theorem found_iff {k : FileKind} {answer : Except FileFault FileKind} :
    k.found answer = true ↔ answer = .ok k := by
  cases answer with
  | error e => simp [FileKind.found]
  | ok k' => simp [FileKind.found, eq_comm]

/-- **A name that leads to no schema file** is passed over. -/
theorem Leads.convertNamed_of_not_hasSchema {r : Request} {name : String} (grown : Grown t t')
    (h : ¬ t.HasSchema (join (t.source r) name)) :
    Leads (convertNamed r target config (t.source r) (t.out r) name) t' (.ok none) t' := by
  unfold convertNamed
  refine (kindOf t' _).bind ?_
  split_ifs with lost other
  · exact (say t' _).bind (pure none t')
  · exact (say t' _).bind (pure none t')
  · have found : FileKind.file.found (t'.kindOf (join (t.source r) name)) = true := by
      simpa using lost
    exact absurd ⟨(grown.kindOf_eq_file_iff (not_not.1 other)).1 (found_iff.1 found),
      not_not.1 other⟩ h

/-- A failure is reported and stays. -/
theorem Leads.handle (e : Failure) (input : String) (t : FileTree) :
    Leads ((do
      if let .parse _ := e then Host.warn ("Error while parsing file: " ++ input)
      MonadExcept.throw e) : ExceptT Failure (StateM World) Unit) t (.error e) t := by
  cases e with
  | parse e => exact (warn t _).bind (throw _ t)
  | _ => exact throw _ t

/-- **A run writes what is known** and comes to a value, or fails as is known and writes nothing. -/
inductive Writes {α : Type} (x : ExceptT Failure (StateM World) α) (t : FileTree) (debug : Bool)
    (a : α) : Except Failure (List (Location × String)) → Prop
  | ok {files : List (Location × String)} (other : ∀ f ∈ files, ¬ IsSource f.1)
      (h : Leads x t (.ok a) (t.after files)) : Writes x t debug a (.ok files)
  | error {e : Failure} (kind : e.OfConversion debug) (h : Leads x t (.error e) t) :
      Writes x t debug a (.error e)

section

variable {folder leaf : String} (grown : Grown t t')
  (whole : config.halfImports = false ∧ config.halfWrapper = false)
include grown whole

/-- **A document is emitted as a whole or not at all**: whatever has a dump has an output. -/
theorem writes_emit (out : t.kindOf folder = .ok .folder) (name : IsOutputName leaf)
    (free : t.kindOf (normal (join folder leaf)) ≠ .ok .folder) (verbose debug : Bool)
    (target : Target) (input : String) (d : Document) :
    Writes (emit verbose debug target config input (join folder leaf) d) t' debug ()
      (t.emitted debug target config d (join folder leaf)) := by
  have render {t'' : FileTree} (grown : Grown t t'') :=
    grown.rendered_eq out name target config d ▸ Puts.writeRendered whole t'' target d _
  have rendered := rendered_cases out name free target config d
  unfold emitted emit
  cases debug with
  | false =>
    obtain ⟨e, fails, kind, -⟩ | ⟨f, known, other⟩ := rendered
    · rw [fails] at render ⊢
      obtain ⟨h⟩ | ⟨h⟩ := render grown
      exact .error (kind _) h.bind_error
    · rw [known] at render ⊢
      obtain ⟨h⟩ | ⟨h⟩ := render grown
      exact .ok (by simpa using other) (h.bind (Leads.report _ _ _))
  | true =>
    have dump := Puts.writeDump t' d (join folder (leaf ++ dumpSuffix))
    rw [grown.dumped_eq out name.dump] at dump
    rw [join_dumpSuffix name]
    obtain ⟨e, fails, kind⟩ | ⟨f, known, other, writable, short⟩ := dumped_cases out name.dump d
    · rw [fails] at dump ⊢
      obtain ⟨h⟩ | ⟨h⟩ := dump
      exact .error kind h.bind_error
    · rw [known] at dump ⊢
      obtain ⟨h⟩ | ⟨h⟩ := dump
      -- The folder has room for the name of the dump, so it has room for that of the output.
      obtain ⟨e, -, -, long⟩ | ⟨g, known', other'⟩ := rendered
      · exact absurd ((long writable).dump name) short
      · rw [known'] at render ⊢
        obtain ⟨h'⟩ | ⟨h'⟩ := render (grown.put other _)
        have both : ∀ k ∈ [f, g], ¬ IsSource k.1 := by simp [other, other']
        exact .ok both (h.bind (h'.bind (Leads.report _ _ _)))

variable {r : Request} (out : t.kindOf (t.out r) = .ok .folder)
include out

/-- **A conversion writes what is known** from the tree at the start. -/
theorem writes_convertFile {input : String} (schema : t.HasSchema input)
    (free : t.kindOf (normal (t.output r target input)) ≠ .ok .folder) :
    Writes (convertFile r.verbose r.debug target config input (t.output r target input)) t' r.debug
      () (t.writes r target config input) := by
  obtain ⟨l, located, -⟩ := FileTree.kindOf_eq_file_iff.1 schema.1
  have name := isOutputName_output located target
  have read := Leads.readDocument t' r.verbose input
  rw [grown.document_eq schema] at read
  rw [convertFile_eq]
  unfold writes
  cases document : t.document input with
  | error e =>
    rw [document] at read
    exact .error (document_error schema document) read.bind_error
  | ok d =>
    rw [document] at read
    have emits := writes_emit grown whole out name free r.verbose r.debug target input d
    change Writes _ t' r.debug () (t.emitted r.debug target config d (t.output r target input))
    rw [output] at *
    generalize t.emitted r.debug target config d _ = answer at emits ⊢
    cases emits with
    | ok other h => exact .ok other (read.bind h)
    | error kind h => exact .error kind (read.bind h)

/-- **A name that leads to a schema file** is converted. -/
theorem writes_convertNamed {name : String} (schema : t.HasSchema (join (t.source r) name))
    (free : t.kindOf (normal (t.output r target (join (t.source r) name))) ≠ .ok .folder) :
    Writes (convertNamed r target config (t.source r) (t.out r) name) t' r.debug
      (some (t.output r target (join (t.source r) name)))
      (t.writes r target config (join (t.source r) name)) := by
  have found : FileKind.file.found (t'.kindOf (join (t.source r) name)) = true :=
    found_iff.2 ((grown.kindOf_eq_file_iff schema.2).2 schema.1)
  have converts := writes_convertFile grown whole out schema free
  generalize t.writes r target config (join (t.source r) name) = answer at converts ⊢
  cases converts with
  | ok other h =>
    refine .ok other ((Leads.kindOf t' _).bind ?_)
    rw [found, if_neg (by decide), if_neg (not_not.2 schema.2)]
    exact (Leads.tryCatch_ok h).bind ((Leads.say _ _).bind (Leads.pure _ _))
  | error kind h =>
    refine .error kind ((Leads.kindOf t' _).bind ?_)
    rw [found, if_neg (by decide), if_neg (not_not.2 schema.2)]
    exact (Leads.tryCatch_error h (.handle _ _ t')).bind_error

end

/-! ## All files -/

/-- **The conversion of files from the left**: the texts that are written for each of them and the
paths of the outputs, or the failure of the first one that cannot be converted. -/
inductive FileTree.FromLeft (t : FileTree) (r : Request) (target : Target) (config : Config) :
    List String → List (List (Location × String)) → Except Failure (List String) → Prop
  | nil : FromLeft t r target config [] [] (.ok [])
  | stop {input : String} {e : Failure} (known : t.writes r target config input = .error e)
      (kind : e.OfConversion r.debug) (rest : List String) :
      FromLeft t r target config (input :: rest) [] (.error e)
  | cons {input : String} {inputs : List String} {first : List (Location × String)}
      {files : List (List (Location × String))} {answer : Except Failure (List String)}
      (known : t.writes r target config input = .ok first)
      (rest : FromLeft t r target config inputs files answer) :
      FromLeft t r target config (input :: inputs) (first :: files)
        (answer.map (t.output r target input :: ·))

variable {r : Request} {inputs : List String} {files : List (List (Location × String))}
  {answer : Except Failure (List String)}

/-- **All files are converted**, or those in front of one that cannot be. -/
theorem FileTree.FromLeft.cases (h : t.FromLeft r target config inputs files answer) :
    (inputs.mapM (t.writes r target config) = .ok files
        ∧ answer = .ok (inputs.map (t.output r target)))
      ∨ ∃ done input rest e, inputs = done ++ input :: rest
        ∧ done.mapM (t.writes r target config) = .ok files
        ∧ t.writes r target config input = .error e ∧ e.OfConversion r.debug
        ∧ answer = .error e := by
  induction h with
  | nil => exact .inl ⟨rfl, rfl⟩
  | stop known kind rest => exact .inr ⟨[], _, rest, _, rfl, rfl, known, kind, rfl⟩
  | @cons input inputs first files answer known _ ih =>
    have one {names : List String} (all : names.mapM (t.writes r target config) = .ok files) :
        (input :: names).mapM (t.writes r target config) = .ok (first :: files) := by
      rw [List.mapM_cons, known, all]
      rfl
    obtain ⟨all, rfl⟩ | ⟨done, next, rest, e, rfl, all, fails, kind, rfl⟩ := ih
    · exact .inl ⟨one all, rfl⟩
    · exact .inr ⟨input :: done, next, rest, e, rfl, one all, fails, kind, rfl⟩

/-- **The names are gone through from the left**, up to the end or to the first file that cannot be
converted. -/
theorem convertNames_fromLeft (whole : config.halfImports = false ∧ config.halfWrapper = false)
    (out : t.kindOf (t.out r) = .ok .folder) (names : List String)
    (free : ∀ input ∈ t.inputsOf r names,
      t.kindOf (normal (t.output r target input)) ≠ .ok .folder) :
    ∀ {t'}, Grown t t' → ∃ files outputs,
      (∀ f ∈ files.flatten, ¬ IsSource f.1)
      ∧ t.FromLeft r target config (t.inputsOf r names) files (outputs.map (·.filterMap id))
      ∧ Leads (names.mapM (convertNamed r target config (t.source r) (t.out r))) t' outputs
          (t'.after files.flatten) := by
  induction names with
  | nil => exact fun {t'} _ => ⟨[], .ok [], List.forall_mem_nil _, .nil, Leads.pure [] t'⟩
  | cons name names ih =>
    intro t' grown
    by_cases schema : t.HasSchema (join (t.source r) name)
    · rw [inputsOf_cons_of_hasSchema schema] at free ⊢
      obtain ⟨first, others⟩ := List.forall_mem_cons.1 free
      have converts := writes_convertNamed grown whole out schema first
      generalize known : t.writes r target config (join (t.source r) name) = written at converts
      cases converts with
      | @error e kind h =>
        exact ⟨[], .error e, List.forall_mem_nil _, .stop known kind _, h.mapM_cons_error names⟩
      | @ok fs other h =>
        obtain ⟨files, outputs, new, rest, h'⟩ := ih others (grown.after other)
        have every : ∀ f ∈ (fs :: files).flatten, ¬ IsSource f.1 := by
          rw [List.flatten_cons, List.forall_mem_append]
          exact ⟨other, new⟩
        have left : t'.after (fs :: files).flatten = (t'.after fs).after files.flatten :=
          after_append t' fs files.flatten
        refine ⟨fs :: files, _, every, ?_, left ▸ h.mapM_cons h'⟩
        cases outputs <;> exact .cons known rest
    · rw [inputsOf_cons_of_not_hasSchema schema] at free ⊢
      have passes : Leads (convertNamed r target config (t.source r) (t.out r) name) t'
          (.ok none) t' := .convertNamed_of_not_hasSchema grown schema
      obtain ⟨files, outputs, new, rest, h⟩ := ih free grown
      refine ⟨files, _, new, ?_, passes.mapM_cons h⟩
      cases outputs <;> exact rest

end ProtoSchema
