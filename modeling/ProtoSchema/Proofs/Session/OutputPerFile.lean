import Mathlib.Data.List.Forall2
import ProtoSchema.Proofs.Session.FromLeft

/-!
# Proofs/Session/OutputPerFile — when every file gets an output of its own

An output is named by the stem of its file, what the name has in front of its first point.  So files
with one stem have one output, and the last of them is found there (`run_sameStem`).  A session
leaves an output for every file exactly when all of them can be converted and no two have the same
stem (`Request.run_output_per_file_iff`).
-/

namespace ProtoSchema

open FilePath FileTree

/-! ## Runs that fail -/

/-- **A run on a tree fails**, whatever it leaves. -/
def Fails {α : Type} (x : ExceptT Failure (StateM World) α) (t : FileTree) : Prop :=
  ∃ e t', Leads x t (.error e) t'

theorem Leads.fails {α : Type} {x : ExceptT Failure (StateM World) α} {t t' : FileTree}
    {e : Failure} (h : Leads x t (.error e) t') : Fails x t := ⟨e, t', h⟩

namespace Fails

variable {α β : Type} {x : ExceptT Failure (StateM World) α}
  {f : α → ExceptT Failure (StateM World) β} {t t' : FileTree}

theorem bind (h : Fails x t) : Fails (x >>= f) t := by
  obtain ⟨e, t', h⟩ := h
  exact h.bind_error.fails

theorem after {a : α} (hx : Leads x t (.ok a) t') (h : Fails (f a) t') : Fails (x >>= f) t := by
  obtain ⟨e, t'', h⟩ := h
  exact (hx.bind h).fails

theorem tryCatch {handle : Failure → ExceptT Failure (StateM World) α} (h : Fails x t)
    (rethrows : ∀ e t, Leads (handle e) t (.error e) t) : Fails (tryCatch x handle) t := by
  obtain ⟨e, t', h⟩ := h
  exact (h.tryCatch_error (rethrows e t')).fails

theorem mapM_cons {a : α} {l : List α} (h : Fails (f a) t) : Fails ((a :: l).mapM f) t := by
  obtain ⟨e, t', h⟩ := h
  exact (h.mapM_cons_error l).fails

theorem mapM_cons_after {a : α} {b : β} {l : List α} (ha : Leads (f a) t (.ok b) t')
    (h : Fails (l.mapM f) t') : Fails ((a :: l).mapM f) t := by
  obtain ⟨e, t'', h⟩ := h
  exact (ha.mapM_cons h).fails

end Fails

variable {t t' t'' : FileTree} {r : Request} {target : Target} {config : Config} {d : Document}
  {l : Location} {path text input name : String}

namespace FileTree

/-! ## Outputs by their stems -/

/-- The name of the output of a file. -/
def outputName (target : Target) (input : String) : String := stem input ++ target.suffix

theorem isPlain_outputName (target : Target) (input : String) :
    IsPlain (outputName target input) := by
  cases target <;>
    exact isPlain_append (slash_not_mem_stem input) (by decide) ⟨'s', by decide, by decide⟩

/-- Different stems give different names, -/
theorem outputName_ne {other : String} (h : stem other ≠ stem input) (target : Target) :
    outputName target other ≠ outputName target input := fun same =>
  h (String.append_left_inj _ |>.1 same)

/-- and the name of an output is not that of a dump. -/
theorem outputName_ne_dump (target : Target) (other input : String) :
    outputName target other ≠ outputName target input ++ dumpSuffix := by
  intro same
  have last := congrArg (fun s : String => s.toList.getLast?) same
  cases target <;> simp [outputName, Target.suffix, dumpSuffix] at last

/-- Outputs have different paths if their stems are different. -/
theorem stem_eq_of_output_eq {other : String}
    (h : t.output r target other = t.output r target input) : stem other = stem input := by
  by_contra ne
  have same : front (t.out r) ++ outputName target other
      = front (t.out r) ++ outputName target input := by
    rw [← join_eq (isPlain_outputName target other), ← join_eq (isPlain_outputName target input)]
    exact h
  exact outputName_ne ne target (String.append_right_inj _ |>.1 same)

/-- **The outputs of files have different paths exactly when** the stems are different. -/
theorem nodup_outputs_iff {inputs : List String} :
    (inputs.map (t.output r target)).Nodup ↔ (inputs.map stem).Nodup := by
  unfold List.Nodup
  rw [List.pairwise_map, List.pairwise_map]
  refine List.Pairwise.iff fun a b => not_congr ⟨stem_eq_of_output_eq, fun same => ?_⟩
  rw [output, output, same]

/-! ## Files that can be converted -/

/-- **A file that can be converted**: it has a document, in which no number is too long and nothing
takes half a character, and its output has a place, as has its dump if that is asked for. -/
structure Convertible (t : FileTree) (r : Request) (target : Target) (config : Config)
    (input : String) (d : Document) : Prop where
  document : t.document input = .ok d
  writable : d.Writable
  whole : target.takesHalf config d = false
  place : ∃ l, t.place (normal (t.output r target input)) = .ok l
  dump : r.debug = true → d.dump.isSome
    ∧ ∃ l, t.place (normal (t.output r target input ++ dumpSuffix)) = .ok l

/-- **A path has the output of a file** of an earlier tree. -/
def HasOutput (t : FileTree) (target : Target) (config : Config) (t' : FileTree)
    (input path : String) : Prop :=
  ∃ d text, t.document input = .ok d ∧ target.render d d.symbolTable config = .ok text
    ∧ t'.read (normal path) = .ok text.toUTF8

theorem place_eq_ok_iff : t.place path = .ok l ↔ t.locate path = .ok l ∧ l ∉ t.folders := by
  rw [place]
  cases t.locate path with
  | error e => simp [bind, Except.bind]
  | ok k =>
    change (if t.kindAt k = some .folder then _ else _) = _ ↔ _
    simp only [kindAt_eq_folder_iff]
    split_ifs with folder <;> simp <;> rintro rfl <;> exact folder

theorem Grown.place_eq_ok_iff (grown : Grown t t') :
    t'.place path = .ok l ↔ t.place path = .ok l := by
  rw [FileTree.place_eq_ok_iff, FileTree.place_eq_ok_iff, grown.locate_eq_ok_iff, grown.folders]

/-- What has a place in a folder has it under its name. -/
theorem eq_of_place_join {folder leaf : String} {k : Location} (h : t.locate folder = .ok l)
    (mem : l ∈ t.folders) (name : IsOutputName leaf)
    (place : t.place (normal (join folder leaf)) = .ok k) : k = l ++ [leaf] := by
  rw [place_join h mem name.toIsPlain name.nul] at place
  split_ifs at place
  exact (Except.ok.inj place).symm

theorem lookup_put (t : FileTree) (l m : Location) (text : String) :
    (t.put l text).files.lookup m = if m = l then some text.toUTF8 else t.files.lookup m :=
  lookup_writeAt l m text.toUTF8 t.files

end FileTree

/-! ## One file -/

/-- A text is written if its path has a place. -/
theorem writeTextFile_cases (t : FileTree) (path text : String) :
    (∃ l, t.place (normal path) = .ok l
        ∧ Leads (writeTextFile path text) t (.ok ()) (t.put l text))
      ∨ ((¬ ∃ l, t.place (normal path) = .ok l) ∧ Fails (writeTextFile path text) t) := by
  cases place : t.place (normal path) with
  | ok l => exact .inl ⟨l, rfl, Leads.writeTextFile place text⟩
  | error fault => exact .inr ⟨nofun, (Leads.writeTextFile_error place text).fails⟩

/-- **A dump is written** if it can be printed and has a place. -/
theorem writeDump_cases (t : FileTree) (d : Document) (path : String) :
    (d.dump.isSome ∧ ∃ l text, t.place (normal path) = .ok l
        ∧ Leads (writeDump d path) t (.ok ()) (t.put l text))
      ∨ (¬ (d.dump.isSome ∧ ∃ l, t.place (normal path) = .ok l) ∧ Fails (writeDump d path) t) := by
  unfold writeDump
  cases d.dump with
  | none => exact .inr ⟨fun h => Bool.false_ne_true h.1, (Leads.throw _ t).fails⟩
  | some text =>
    obtain ⟨l, place, writes⟩ | ⟨no, fails⟩ := writeTextFile_cases t path text
    · exact .inl ⟨rfl, l, text, place, writes⟩
    · exact .inr ⟨fun h => no h.2, fails⟩

/-- **An output is written** if its numbers can be, nothing takes half a character, and it has a
place. -/
theorem writeRendered_cases (t : FileTree) (target : Target) (config : Config) (d : Document)
    (path : String) :
    (d.Writable ∧ target.takesHalf config d = false ∧ ∃ l text, t.place (normal path) = .ok l
        ∧ target.render d d.symbolTable config = .ok text
        ∧ Leads (writeRendered target config d path) t (.ok ()) (t.put l text))
      ∨ (¬ (d.Writable ∧ target.takesHalf config d = false ∧ ∃ l, t.place (normal path) = .ok l)
        ∧ Fails (writeRendered target config d path) t) := by
  unfold writeRendered
  obtain ⟨writable, text, render⟩ | ⟨tooLong, render⟩ := target.failsUnless_render d config
  · rw [render]
    dsimp only [writeOutput]
    cases half : target.takesHalf config d with
    | true =>
      refine .inr ⟨fun h => Bool.false_ne_true h.2.1.symm, ?_⟩
      obtain ⟨l, -, writes⟩ | ⟨-, fails⟩ := writeTextFile_cases t path ""
      · exact .after writes (Leads.throw _ _).fails
      · exact fails.bind
    | false =>
      obtain ⟨l, place, writes⟩ | ⟨no, fails⟩ := writeTextFile_cases t path text
      · exact .inl ⟨writable, rfl, l, text, place, rfl, writes⟩
      · exact .inr ⟨fun h => no h.2.2, fails⟩
  · rw [render]
    exact .inr ⟨fun h => tooLong h.1, (Leads.throw _ t).fails⟩

/-- **What the conversion of a file leaves**: its output, and the outputs of files with other stems
as they were. -/
structure LeavesOutput (t t' t'' : FileTree) (target : Target) (config : Config) (l : Location)
    (input : String) (d : Document) : Prop where
  grown : Grown t t''
  written : ∃ text, target.render d d.symbolTable config = .ok text
    ∧ t''.files.lookup (l ++ [outputName target input]) = some text.toUTF8
  others : ∀ other, stem other ≠ stem input →
    t''.files.lookup (l ++ [outputName target other])
      = t'.files.lookup (l ++ [outputName target other])

/-- Writing an output leaves it, and all others as they were. -/
theorem LeavesOutput.of_put (grown : Grown t t') (named : IsOutputName (outputName target input))
    (render : target.render d d.symbolTable config = .ok text) :
    LeavesOutput t t' (t'.put (l ++ [outputName target input]) text) target config l input d where
  grown := grown.put (named.not_isSource l) text
  written := ⟨text, render, by rw [lookup_put, if_pos rfl]⟩
  others other ne := by
    have differ : l ++ [outputName target other] ≠ l ++ [outputName target input] := by
      simpa using outputName_ne ne target
    rw [lookup_put, if_neg differ]

/-- The dump of a document is in no output's way. -/
theorem LeavesOutput.after_dump {dump : String} (h : LeavesOutput t
    (t'.put (l ++ [outputName target input ++ dumpSuffix]) dump) t'' target config l input d) :
    LeavesOutput t t' t'' target config l input d where
  grown := h.grown
  written := h.written
  others other ne := by
    have differ : l ++ [outputName target other]
        ≠ l ++ [outputName target input ++ dumpSuffix] := by
      simpa using outputName_ne_dump target other input
    rw [h.others other ne, lookup_put, if_neg differ]

section

variable (target config) (grown : Grown t t') (located : t.locate (t.out r) = .ok l)
  (mem : l ∈ t.folders)
include grown located mem

/-- **A document is emitted** and leaves its output, if the file can be converted. -/
theorem emit_cases (named : IsOutputName (outputName target input))
    (document : t.document input = .ok d) (verbose : Bool) :
    (t.Convertible r target config input d
        ∧ ∃ t'', Leads (emit verbose r.debug target config input (t.output r target input) d) t'
            (.ok ()) t''
          ∧ LeavesOutput t t' t'' target config l input d)
      ∨ (¬ t.Convertible r target config input d
        ∧ Fails (emit verbose r.debug target config input (t.output r target input) d) t') := by
  unfold emit
  cases debug : r.debug with
  | false =>
    obtain ⟨writable, whole, k, text, place, render, writes⟩ | ⟨no, fails⟩ :=
      writeRendered_cases t' target config d (t.output r target input)
    · rw [grown.place_eq_ok_iff] at place
      obtain rfl := eq_of_place_join located mem named place
      exact .inl ⟨⟨document, writable, whole, ⟨_, place⟩, by simp [debug]⟩, _,
        writes.bind (Leads.report _ _ _), LeavesOutput.of_put grown named render⟩
    · refine .inr ⟨fun h => no ⟨h.writable, h.whole, ?_⟩, fails.bind⟩
      simpa only [grown.place_eq_ok_iff] using h.place
  | true =>
    obtain ⟨printed, k, dump, room, dumps⟩ | ⟨no, fails⟩ :=
      writeDump_cases t' d (t.output r target input ++ dumpSuffix)
    · rw [grown.place_eq_ok_iff] at room
      have beside : t.place (normal (join (t.out r) (outputName target input ++ dumpSuffix)))
          = .ok k := by
        rw [← join_dumpSuffix named]
        exact room
      obtain rfl := eq_of_place_join located mem named.dump beside
      -- The output is written to the tree that has the dump, where its place is the same.
      have grown' := grown.put (named.dump.not_isSource l) dump
      obtain ⟨writable, whole, k, text, place, render, writes⟩ | ⟨no, fails⟩ :=
        writeRendered_cases _ target config d (t.output r target input)
      · rw [grown'.place_eq_ok_iff] at place
        obtain rfl := eq_of_place_join located mem named place
        exact .inl ⟨⟨document, writable, whole, ⟨_, place⟩, fun _ => ⟨printed, _, room⟩⟩, _,
          dumps.bind (writes.bind (Leads.report _ _ _)),
          (LeavesOutput.of_put grown' named render).after_dump⟩
      · refine .inr ⟨fun h => no ⟨h.writable, h.whole, ?_⟩, .after dumps fails.bind⟩
        simpa only [grown'.place_eq_ok_iff] using h.place
    · refine .inr ⟨fun h => no ⟨(h.dump debug).1, ?_⟩, fails.bind⟩
      simpa only [grown.place_eq_ok_iff] using (h.dump debug).2

/-- **A file is converted** and leaves its output, if it can be. -/
theorem convertFile_cases (schema : t.HasSchema input) :
    (∃ d, t.Convertible r target config input d
        ∧ ∃ t'', Leads (convertFile r.verbose r.debug target config input
            (t.output r target input)) t' (.ok ()) t''
          ∧ LeavesOutput t t' t'' target config l input d)
      ∨ ((¬ ∃ d, t.Convertible r target config input d)
        ∧ Fails (convertFile r.verbose r.debug target config input (t.output r target input))
          t') := by
  obtain ⟨k, way, -⟩ := FileTree.kindOf_eq_file_iff.1 schema.1
  have reads := Leads.readDocument t' r.verbose input
  rw [grown.document_eq schema] at reads
  rw [convertFile_eq]
  cases document : t.document input with
  | error e =>
    rw [document] at reads
    refine .inr ⟨?_, reads.bind_error.fails⟩
    rintro ⟨d, h⟩
    exact nomatch document.symm.trans h.document
  | ok d =>
    rw [document] at reads
    obtain ⟨can, t'', emits, leaves⟩ | ⟨no, fails⟩ :=
      emit_cases target config grown located mem (isOutputName_output way target) document r.verbose
    · exact .inl ⟨d, can, t'', reads.bind emits, leaves⟩
    · refine .inr ⟨?_, .after reads fails⟩
      rintro ⟨d', h⟩
      obtain rfl := Except.ok.inj (document.symm.trans h.document)
      exact no h

/-- **A name that leads to a schema file** has the path of its output as result. -/
theorem convertNamed_cases (schema : t.HasSchema (join (t.source r) name)) :
    (∃ d, t.Convertible r target config (join (t.source r) name) d
        ∧ ∃ t'', Leads (convertNamed r target config (t.source r) (t.out r) name) t'
            (.ok (some (t.output r target (join (t.source r) name)))) t''
          ∧ LeavesOutput t t' t'' target config l (join (t.source r) name) d)
      ∨ ((¬ ∃ d, t.Convertible r target config (join (t.source r) name) d)
        ∧ Fails (convertNamed r target config (t.source r) (t.out r) name) t') := by
  have found : FileKind.file.found (t'.kindOf (join (t.source r) name)) = true :=
    found_iff.2 ((grown.kindOf_eq_file_iff schema.2).2 schema.1)
  obtain ⟨d, can, t'', converts, leaves⟩ | ⟨no, fails⟩ :=
    convertFile_cases target config grown located mem schema
  · refine .inl ⟨d, can, t'', (Leads.kindOf t' _).bind ?_, leaves⟩
    rw [found, if_neg (by decide), if_neg (not_not.2 schema.2)]
    exact (Leads.tryCatch_ok converts).bind ((Leads.say _ _).bind (Leads.pure _ _))
  · refine .inr ⟨no, .after (Leads.kindOf t' _) ?_⟩
    rw [found, if_neg (by decide), if_neg (not_not.2 schema.2)]
    exact (fails.tryCatch fun e t'' => Leads.handle e _ t'').bind

end

/-! ## All files -/

/-- **What the conversion of files leaves**: an output for each of them if their stems are
different, and the outputs of files with other stems as they were. -/
structure LeavesOutputs (t t' t'' : FileTree) (target : Target) (config : Config) (l : Location)
    (inputs : List String) : Prop where
  grown : Grown t t''
  written : (inputs.map stem).Nodup → ∀ input ∈ inputs, ∃ d text, t.document input = .ok d
    ∧ target.render d d.symbolTable config = .ok text
    ∧ t''.files.lookup (l ++ [outputName target input]) = some text.toUTF8
  others : ∀ other, stem other ∉ inputs.map stem →
    t''.files.lookup (l ++ [outputName target other])
      = t'.files.lookup (l ++ [outputName target other])

/-- One more file is converted before the others. -/
theorem LeavesOutputs.cons {t₁ : FileTree} {inputs : List String}
    (document : t.document input = .ok d)
    (first : LeavesOutput t t' t₁ target config l input d)
    (rest : LeavesOutputs t t₁ t'' target config l inputs) :
    LeavesOutputs t t' t'' target config l (input :: inputs) where
  grown := rest.grown
  written distinct := by
    -- The files behind this one have other stems, so they leave its output alone.
    obtain ⟨new, distinct⟩ := List.nodup_cons.1 distinct
    refine List.forall_mem_cons.2 ⟨?_, rest.written distinct⟩
    obtain ⟨text, render, written⟩ := first.written
    exact ⟨d, text, document, render, (rest.others input new).trans written⟩
  others other new := by
    obtain ⟨ne, new⟩ := not_or.1 (mt List.mem_cons.2 new)
    exact (rest.others other new).trans (first.others other ne)

/-- **The names are gone through from the left**, and all outputs left if all files can be
converted. -/
theorem convertNames_outputs_cases (target : Target) (config : Config)
    (located : t.locate (t.out r) = .ok l) (mem : l ∈ t.folders) (names : List String) :
    ∀ {t'}, Grown t t' →
    ((∀ input ∈ t.inputsOf r names, ∃ d, t.Convertible r target config input d)
        ∧ ∃ outputs t'', outputs.filterMap id = (t.inputsOf r names).map (t.output r target)
          ∧ Leads (names.mapM (convertNamed r target config (t.source r) (t.out r))) t'
            (.ok outputs) t''
          ∧ LeavesOutputs t t' t'' target config l (t.inputsOf r names))
      ∨ ((¬ ∀ input ∈ t.inputsOf r names, ∃ d, t.Convertible r target config input d)
        ∧ Fails (names.mapM (convertNamed r target config (t.source r) (t.out r))) t') := by
  induction names with
  | nil =>
    intro t' grown
    refine .inl ⟨List.forall_mem_nil _, [], t', rfl, Leads.pure [] t', grown, fun _ => ?_, ?_⟩
    · exact List.forall_mem_nil _
    · exact fun _ _ => rfl
  | cons name names ih =>
    intro t' grown
    by_cases schema : t.HasSchema (join (t.source r) name)
    · rw [inputsOf_cons_of_hasSchema schema, List.forall_mem_cons]
      obtain ⟨d, can, t₁, converts, first⟩ | ⟨no, fails⟩ :=
        convertNamed_cases target config grown located mem schema
      · obtain ⟨others, outputs, t'', same, rest, leaves⟩ | ⟨no, fails⟩ := ih first.grown
        · refine .inl ⟨⟨⟨d, can⟩, others⟩, _, t'', ?_, converts.mapM_cons rest,
            .cons can.document first leaves⟩
          rw [List.map_cons, ← same]
          rfl
        · exact .inr ⟨fun h => no h.2, .mapM_cons_after converts fails⟩
      · exact .inr ⟨fun h => no h.1, fails.mapM_cons⟩
    · rw [inputsOf_cons_of_not_hasSchema schema]
      have passes : Leads (convertNamed r target config (t.source r) (t.out r) name) t'
          (.ok none) t' := .convertNamed_of_not_hasSchema grown schema
      obtain ⟨all, outputs, t'', same, rest, leaves⟩ | ⟨no, fails⟩ := ih grown
      · exact .inl ⟨all, none :: outputs, t'', same, passes.mapM_cons rest, leaves⟩
      · exact .inr ⟨no, .mapM_cons_after passes fails⟩

/-- The files of a session are there. -/
theorem FileTree.locate_of_mem_inputs (h : input ∈ t.inputs r) : ∃ l, t.locate input = .ok l := by
  have schema : t.HasSchema input := of_decide_eq_true (List.mem_filter.1 h).2
  obtain ⟨l, way, -⟩ := FileTree.kindOf_eq_file_iff.1 schema.1
  exact ⟨l, way⟩

/-- An output that was left is read at its path. -/
theorem LeavesOutputs.hasOutput {inputs : List String} (located : t.locate (t.out r) = .ok l)
    (mem : l ∈ t.folders) (h : LeavesOutputs t t' t'' target config l inputs)
    (distinct : (inputs.map stem).Nodup) (can : t.Convertible r target config input d)
    (known : ∃ k, t.locate input = .ok k) (one : input ∈ inputs) :
    t.HasOutput target config t'' input (t.output r target input) := by
  obtain ⟨d, text, document, render, written⟩ := h.written distinct input one
  obtain ⟨k, way⟩ := known
  obtain ⟨m, place⟩ := can.place
  obtain rfl := eq_of_place_join located mem (isOutputName_output way target) place
  obtain ⟨path, free⟩ := place_eq_ok_iff.1 place
  refine ⟨d, text, document, render, ?_⟩
  rw [FileTree.read, h.grown.locate_eq_ok_iff.2 path]
  dsimp only
  rw [h.grown.folders, if_neg free]
  exact written ▸ rfl

/-! ## The session -/

/-- **Every file of a session gets an output of its own exactly when** all of them can be converted
and no two have the same stem.  Then the results are different paths, and each of them leads to the
output of its file. -/
theorem Request.run_output_per_file_iff (r : Request) (w : World)
    (source : w.tree.kindOf (w.tree.source r) = .ok .folder)
    (out : w.tree.kindOf (w.tree.out r) = .ok .folder)
    (given : givenTarget r.target = .ok target)
    (loads : (w.run (givenConfig r.verbose r.config)).1 = .ok config) :
    (∃ outputs, (w.run r.run).1 = .ok outputs ∧ outputs.Nodup
        ∧ List.Forall₂ (w.tree.HasOutput target config (w.run r.run).2.tree) (w.tree.inputs r)
          outputs)
      ↔ (∀ input ∈ w.tree.inputs r, ∃ d, w.tree.Convertible r target config input d)
        ∧ ((w.tree.inputs r).map stem).Nodup := by
  generalize tree : w.tree = t at *
  obtain ⟨answer, reads⟩ := Keeps.givenConfig t r.verbose r.config
  obtain rfl : answer = .ok config := (reads w tree).1.symm.trans loads
  obtain ⟨l, located, mem⟩ := kindOf_eq_folder_iff.1 out
  obtain ⟨can, results, t', same, h, leaves⟩ | ⟨no, e, t', h⟩ :=
    convertNames_outputs_cases target config located mem (t.names r) (Grown.refl t)
  · obtain ⟨result, left⟩ := Leads.run_of_names source out given reads (Leads.convertAll h) w tree
    have outputs : (w.run r.run).1 = .ok ((t.inputs r).map (t.output r target)) :=
      result.trans (congrArg _ same)
    rw [left]
    constructor
    · rintro ⟨_, known, distinct, -⟩
      obtain rfl := Except.ok.inj (outputs.symm.trans known)
      exact ⟨can, nodup_outputs_iff.1 distinct⟩
    · rintro ⟨-, distinct⟩
      refine ⟨_, outputs, nodup_outputs_iff.2 distinct, ?_⟩
      rw [List.forall₂_map_right_iff, List.forall₂_same]
      intro input one
      obtain ⟨d, can⟩ := can input one
      exact leaves.hasOutput located mem distinct can (locate_of_mem_inputs one) one
  · obtain ⟨result, -⟩ := Leads.run_of_names source out given reads (Leads.convertAll h) w tree
    constructor
    · rintro ⟨_, known, -⟩
      exact nomatch result.symm.trans known
    · exact fun h => absurd h.1 no

/-- A root with three schema files, two of which have the same stem. -/
def sameStem : FileTree := ⟨[[]], [(["a.b.proto"], "message B \x7b\n\x7d\n".toUTF8),
  (["a.c.proto"], "message C \x7b\n\x7d\n".toUTF8), (["d.proto"], ByteArray.empty)], []⟩

/-- The request for two files with different stems. -/
def stemsRequest : Request := { Request.default with files := ["a.b.proto", "d.proto"] }

/-- Both get their output. -/
theorem run_differentStems :
    let w : World := ⟨sameStem, "", ""⟩
    ∃ outputs, (w.run stemsRequest.run).1 = .ok outputs ∧ outputs.Nodup
      ∧ List.Forall₂ (sameStem.HasOutput .typeScript .default (w.run stemsRequest.run).2.tree)
        (sameStem.inputs stemsRequest) outputs := by
  intro w
  have inputs : w.tree.inputs stemsRequest = ["/a.b.proto", "/d.proto"] := by decide +kernel
  have first : w.tree.Convertible stemsRequest .typeScript .default "/a.b.proto"
      ⟨"", "", [], [.message "B" []], []⟩ :=
    ⟨by decide +kernel, List.forall_mem_singleton.2 (List.forall_mem_nil _), by decide,
      ⟨["a.ts"], by decide +kernel⟩, nofun⟩
  have second : w.tree.Convertible stemsRequest .typeScript .default "/d.proto"
      ⟨"", "", [], [], []⟩ :=
    ⟨by decide +kernel, List.forall_mem_nil _, by decide, ⟨["d.ts"], by decide +kernel⟩, nofun⟩
  refine (Request.run_output_per_file_iff stemsRequest w (by decide +kernel) (by decide +kernel)
    (by decide +kernel) (by decide +kernel)).2 ⟨?_, by decide +kernel⟩
  rw [inputs, List.forall_mem_cons, List.forall_mem_singleton]
  exact ⟨⟨_, first⟩, ⟨_, second⟩⟩

/-- The request for the two files with the same stem. -/
def sameStemRequest : Request := { Request.default with files := ["a.b.proto", "a.c.proto"] }

/-- **Different files may have one output**: both of these have a document, and the path of the
output is in the results twice, with the output of the second file in it. -/
theorem run_sameStem :
    let w : World := ⟨sameStem, "", ""⟩
    sameStem.kindOf (sameStem.source sameStemRequest) = .ok .folder
      ∧ sameStem.kindOf (sameStem.out sameStemRequest) = .ok .folder
      ∧ (sameStem.names sameStemRequest).Nodup
      ∧ (∀ name ∈ sameStem.names sameStemRequest, IsPlain name
        ∧ sameStem.HasSchema (join (sameStem.source sameStemRequest) name)
        ∧ ∃ d, sameStem.document (join (sameStem.source sameStemRequest) name) = .ok d)
      ∧ (w.run sameStemRequest.run).1 = .ok ["/a.ts", "/a.ts"]
      ∧ (w.run sameStemRequest.run).2.tree.read "/a.ts"
        = .ok "\nexport interface C \x7b\n\x7d\n".toUTF8
      ∧ ¬ ∃ outputs, (w.run sameStemRequest.run).1 = .ok outputs ∧ outputs.Nodup := by
  intro w
  have names : sameStem.names sameStemRequest = ["a.b.proto", "a.c.proto"] := rfl
  have result : (w.run sameStemRequest.run).1 = .ok ["/a.ts", "/a.ts"] := by decide +kernel
  refine ⟨by decide +kernel, by decide +kernel, by decide +kernel, ?_, result, by decide +kernel,
    ?_⟩
  · rw [names, List.forall_mem_cons, List.forall_mem_singleton]
    exact ⟨⟨⟨by decide, by decide, by decide⟩, by decide +kernel,
      ⟨"", "", [], [.message "B" []], []⟩, by decide +kernel⟩,
      ⟨⟨by decide, by decide, by decide⟩, by decide +kernel,
      ⟨"", "", [], [.message "C" []], []⟩, by decide +kernel⟩⟩
  · rintro ⟨outputs, known, distinct⟩
    obtain rfl := Except.ok.inj (result.symm.trans known)
    exact absurd distinct (by decide)

end ProtoSchema
