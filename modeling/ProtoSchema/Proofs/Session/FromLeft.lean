import ProtoSchema.Proofs.Session.Conversion

/-!
# Proofs/Session/FromLeft — a session works from the left

A session goes from file to file and writes the outputs of each before it looks at the next.  It
ends at the first file that cannot be converted, and nothing is written for that one
(`Request.run_from_left`).  A name may be short enough for a schema file and too long for its output
(`run_letters`).
-/

namespace ProtoSchema

open FilePath FileTree

variable {t t' : FileTree} {path : String} {target : Target} {config : Config} {r : Request}

/-! ## The stages of a session -/

/-- The last part of a session converts the files that are named. -/
def convertAll {m : Type → Type} [Monad m] [Host m] (r : Request) (target : Target)
    (config : Config) (source out : String) (names : List String) :
    ExceptT Failure m (List String) := do
  if names.isEmpty then
    Host.say ("No .proto files found under " ++ source)
    return []
  return (← names.mapM (convertNamed r target config source out)).filterMap id

namespace Leads

theorem convertAll {source out : String} {names : List String}
    {outputs : Except Failure (List (Option String))}
    (h : Leads (names.mapM (convertNamed r target config source out)) t outputs t') :
    Leads (ProtoSchema.convertAll r target config source out names) t
      (outputs.map (·.filterMap id)) t' := by
  cases names with
  | nil =>
    obtain ⟨rfl, rfl⟩ : .ok [] = outputs ∧ t = t' := h ⟨t, "", ""⟩ rfl
    exact (say t _).bind (pure [] t)
  | cons name names =>
    cases outputs with
    | ok outputs => exact h.bind (pure _ t')
    | error e => exact h.bind_error

theorem folderOr (t : FileTree) (folder : Option String) :
    Leads (folderOr folder) t (.ok (t.folderOr folder)) t := by
  cases folder with
  | none => exact currentFolder t
  | some path =>
    by_cases empty : path = ""
    · subst empty
      exact currentFolder t
    · simp only [ProtoSchema.folderOr, FileTree.folderOr]
      exact pure path t

theorem requireFolder (what : String) (h : t.kindOf path = .ok .folder) :
    Leads (requireFolder what path) t (.ok ()) t := by
  refine (kindOf t path).bind ?_
  rw [found_iff.2 h]
  exact pure () t

theorem schemaNames (t : FileTree) (folder : String) :
    Leads (ProtoSchema.schemaNames folder) t (.ok (t.schemaNames folder)) t :=
  (namesIn t (normal folder)).bind (pure _ t)

/-- A session whose names are known goes on to convert them. -/
theorem run_of_names {answer : Except Failure (List String)}
    (source : t.kindOf (t.source r) = .ok .folder) (out : t.kindOf (t.out r) = .ok .folder)
    (given : givenTarget r.target = .ok target)
    (loads : Leads (givenConfig r.verbose r.config) t (.ok config) t)
    (h : Leads (ProtoSchema.convertAll r target config (t.source r) (t.out r) (t.names r)) t
      answer t') : Leads r.run t answer t' := by
  unfold Request.run
  refine (folderOr t _).bind <| (folderOr t _).bind <| (requireFolder _ out).bind
    <| (requireFolder _ source).bind ?_
  rw [given]
  refine (pure target t).bind <| loads.bind ?_
  unfold FileTree.names at h
  split_ifs with none
  · rw [if_pos none] at h
    exact (schemaNames t _).bind h
  · rw [if_neg none] at h
    exact (pure r.files t).bind h

end Leads

/-- **A session converts its files from the left, each as a whole or not at all.**  It ends with
the outputs of all, or at the first one that cannot be converted, for which nothing is written. -/
theorem Request.run_from_left (r : Request) (w : World)
    (source : w.tree.kindOf (w.tree.source r) = .ok .folder)
    (out : w.tree.kindOf (w.tree.out r) = .ok .folder)
    (given : givenTarget r.target = .ok target)
    (loads : (w.run (givenConfig r.verbose r.config)).1 = .ok config)
    (whole : config.halfImports = false ∧ config.halfWrapper = false)
    (free : ∀ input ∈ w.tree.inputs r,
      w.tree.kindOf (normal (w.tree.output r target input)) ≠ .ok .folder) :
    ∃ files : List (List (Location × String)),
      (w.run r.run).2.tree = w.tree.after files.flatten
      ∧ Grown w.tree (w.run r.run).2.tree
      ∧ (∀ l ∉ files.flatten.map Prod.fst,
          (w.run r.run).2.tree.files.lookup l = w.tree.files.lookup l)
      ∧ ((w.tree.inputs r).mapM (w.tree.writes r target config) = .ok files
          ∧ (w.run r.run).1 = .ok ((w.tree.inputs r).map (w.tree.output r target))
        ∨ ∃ done input rest e, w.tree.inputs r = done ++ input :: rest
          ∧ done.mapM (w.tree.writes r target config) = .ok files
          ∧ w.tree.writes r target config input = .error e ∧ e.OfConversion r.debug
          ∧ (w.run r.run).1 = .error e) := by
  generalize tree : w.tree = t at *
  obtain ⟨answer, reads⟩ := Keeps.givenConfig t r.verbose r.config
  obtain rfl : answer = .ok config := (reads w tree).1.symm.trans loads
  obtain ⟨files, outputs, other, fromLeft, h⟩ :=
    convertNames_fromLeft whole out (t.names r) free (Grown.refl t)
  have grown : Grown t (t.after files.flatten) := (Grown.refl t).after other
  have kept : ∀ l ∉ files.flatten.map Prod.fst,
      (t.after files.flatten).files.lookup l = t.files.lookup l := fun l h => lookup_after h t
  obtain ⟨result, left⟩ := Leads.run_of_names source out given reads (Leads.convertAll h) w tree
  rw [result, left]
  exact ⟨files, rfl, grown, kept, fromLeft.cases⟩

/-- A root with two schema files, the second of which closes what is not open. -/
def twoFiles : FileTree :=
  ⟨[[]], [(["a.proto"], "message A \x7b\n\x7d\n".toUTF8), (["b.proto"], "\x7d".toUTF8)], []⟩

/-- The request to convert these files and to dump their documents. -/
def twoRequest : Request := { Request.default with files := ["a.proto", "b.proto"], debug := true }

/-- The two files in turn. -/
theorem run_twoFiles :
    let w : World := ⟨twoFiles, "", ""⟩
    ∃ files : List (List (Location × String)),
      (w.run twoRequest.run).2.tree = twoFiles.after files.flatten
      ∧ Grown twoFiles (w.run twoRequest.run).2.tree
      ∧ (∀ l ∉ files.flatten.map Prod.fst,
          (w.run twoRequest.run).2.tree.files.lookup l = twoFiles.files.lookup l)
      ∧ ((twoFiles.inputs twoRequest).mapM (twoFiles.writes twoRequest .typeScript .default)
            = .ok files
          ∧ (w.run twoRequest.run).1
            = .ok ((twoFiles.inputs twoRequest).map (twoFiles.output twoRequest .typeScript))
        ∨ ∃ done input rest e, twoFiles.inputs twoRequest = done ++ input :: rest
          ∧ done.mapM (twoFiles.writes twoRequest .typeScript .default) = .ok files
          ∧ twoFiles.writes twoRequest .typeScript .default input = .error e
          ∧ e.OfConversion true ∧ (w.run twoRequest.run).1 = .error e) :=
  Request.run_from_left twoRequest ⟨twoFiles, "", ""⟩ (by decide +kernel) (by decide +kernel)
    (by decide +kernel) (by decide +kernel) (by decide) (by decide +kernel)

/-! ## A name that is too long -/

/-- An output whose name is too long is not written. -/
theorem writes_of_tooLong {input : String} {d : Document} (schema : t.HasSchema input)
    (out : t.kindOf (t.out r) = .ok .folder) (debug : r.debug = false)
    (document : t.document input = .ok d) (writable : d.Writable)
    (long : TooLong (t.out r) (stem input ++ target.suffix)) :
    t.writes r target config input = .error (.file .nameTooLong) := by
  obtain ⟨l, located, -⟩ := FileTree.kindOf_eq_file_iff.1 schema.1
  have name := isOutputName_output located target
  have fault : t.place (normal (join (t.out r) (stem input ++ target.suffix)))
      = .error .nameTooLong := by
    obtain ⟨l, folder, mem⟩ := kindOf_eq_folder_iff.1 out
    rw [place_join folder mem name.toIsPlain name.nul, if_pos long]
  have rendered : t.rendered target config d (t.output r target input)
      = .error (.file .nameTooLong) := by
    obtain ⟨-, text, render⟩ | ⟨fails, -⟩ := target.failsUnless_render d config
    · unfold FileTree.rendered
      rw [render]
      exact placed_of_fault fault
    · exact absurd writable fails
  unfold writes emitted
  rw [document, debug]
  change (t.rendered target config d (t.output r target input) >>= fun f => Pure.pure [f]) = _
  rw [rendered]
  rfl

/-- A root with one empty schema file, of which the name up to the suffix is given. -/
def oneFile (s : String) : FileTree := ⟨[[]], [([s ++ ".proto"], ByteArray.empty)], []⟩

/-- The request to convert this file in its folder. -/
def oneRequest (s : String) : Request := { Request.default with
  files := [s ++ ".proto"], source := .value "/", out := .value "/", target := .value "zod" }

/-- **A stem that a name can have**, with 249 bytes: with the suffix of a schema file the name has
the most bytes it may have, and with that of the output one more. -/
structure IsLongStem (s : String) : Prop where
  nul : '\x00' ∉ s.toList
  slash : '/' ∉ s.toList
  point : '.' ∉ s.toList
  size : s.utf8ByteSize = 249

theorem kindOf_root (s : String) : (oneFile s).kindOf "/" = .ok .folder :=
  kindOf_eq_folder_iff.2 ⟨[], rfl, List.mem_singleton_self []⟩

namespace IsLongStem

variable {s : String} (h : IsLongStem s)
include h

theorem ne_empty : s ≠ "" := by
  rintro rfl
  exact nomatch h.size

theorem isPlain : IsPlain (s ++ ".proto") :=
  isPlain_append h.slash (by decide) ⟨'o', by decide, by decide⟩

theorem isOutputName : IsOutputName (s ++ ".zod.ts") :=
  isOutputName_append ⟨h.slash, by decide⟩ ⟨h.nul, by decide⟩ ⟨'s', by decide, by decide⟩

theorem tooLong : TooLong "/" (s ++ ".zod.ts") := by
  refine .inr ?_
  rw [String.utf8ByteSize_append, h.size]
  decide

theorem locate : (oneFile s).locate (join "/" (s ++ ".proto")) = .ok [s ++ ".proto"] := by
  have path : join "/" (s ++ ".proto") = "/" ++ (s ++ ".proto") := join_eq h.isPlain "/"
  have size : (s ++ ".proto").utf8ByteSize = partLimit := by
    rw [String.utf8ByteSize_append, h.size]
    rfl
  refine locate_eq_ok_iff.2 ⟨fun mem => ?_, ?_, ?_, ?_⟩
  · refine (mem_of_mem_join h.isPlain mem (by decide)).elim (by decide) fun mem => ?_
    rw [String.toList_append, List.mem_append] at mem
    exact mem.elim h.nul (by decide)
  · rw [path]
    simp [String.append_eq_empty_iff]
  · rw [path, String.utf8ByteSize_append, size]
    decide
  · rw [FileTree.start, isAbsolute_join h.isPlain (by decide), path, parts_slash_append,
      h.isPlain.parts_eq]
    have root : [] ∈ (oneFile s).folders := List.mem_singleton_self []
    refine follow_cons_eq_ok_iff.2 ⟨root, by decide, follow_cons_eq_ok_iff.2 ⟨root, size.le, ?_⟩⟩
    rw [step_of_isPlain h.isPlain]
    rfl

theorem hasSchema : (oneFile s).HasSchema (join "/" (s ++ ".proto")) := by
  refine ⟨kindOf_eq_file_iff.2 ⟨_, h.locate, ?_, ?_⟩, suffix_join h.isPlain h.ne_empty "/"⟩
  · simp [oneFile]
  · simp [oneFile]

theorem document : (oneFile s).document (join "/" (s ++ ".proto")) = .ok ⟨"", "", [], [], []⟩ := by
  have read : (oneFile s).read (normal (join "/" (s ++ ".proto"))) = .ok ByteArray.empty := by
    rw [FileTree.read, locate_normal h.locate]
    simp [oneFile]
  have text : (oneFile s).textOf (join "/" (s ++ ".proto")) = .ok "" := by
    unfold textOf
    rw [read]
    rfl
  unfold FileTree.document
  rw [text]
  rfl

theorem output : (oneFile s).output (oneRequest s) .zod (join "/" (s ++ ".proto"))
    = join "/" (s ++ ".zod.ts") := by
  unfold FileTree.output
  rw [stem_join h.isPlain h.point]
  rfl

theorem inputs : (oneFile s).inputs (oneRequest s) = [join "/" (s ++ ".proto")] := by
  have names : (oneFile s).names (oneRequest s) = [s ++ ".proto"] := rfl
  rw [FileTree.inputs, names]
  exact inputsOf_cons_of_hasSchema (r := oneRequest s) h.hasSchema []

/-- The path of the output leads nowhere. -/
theorem kindOf_output : (oneFile s).kindOf (normal (join "/" (s ++ ".zod.ts")))
    = .error .nameTooLong := by
  have root : (oneFile s).locate "/" = .ok [] := rfl
  rw [kindOf, locate_join root (List.mem_singleton_self []) h.isOutputName.toIsPlain
    h.isOutputName.nul, if_pos h.tooLong]

theorem writes : (oneFile s).writes (oneRequest s) .zod .default (join "/" (s ++ ".proto"))
    = .error (.file .nameTooLong) := by
  have writable : (⟨"", "", [], [], []⟩ : Document).Writable := fun m mem => nomatch mem
  refine writes_of_tooLong (r := oneRequest s) h.hasSchema (kindOf_root s) rfl h.document
    writable ?_
  rw [stem_join h.isPlain h.point]
  exact h.tooLong

end IsLongStem

/-- The session ends without an output. -/
theorem IsLongStem.run {s : String} (h : IsLongStem s) {w : World} (tree : w.tree = oneFile s)
    (loads : (w.run (givenConfig false .nothing)).1 = .ok .default) :
    (w.run (oneRequest s).run).1 = .error (.file .nameTooLong) := by
  obtain ⟨answer, reads⟩ := Keeps.givenConfig (oneFile s) false .nothing
  obtain rfl : answer = .ok .default := (reads w tree).1.symm.trans loads
  have free : (oneFile s).kindOf (normal ((oneFile s).output (oneRequest s) .zod
      (join "/" (s ++ ".proto")))) ≠ .ok .folder := by
    rw [h.output, h.kindOf_output]
    exact nofun
  have whole : Config.default.halfImports = false ∧ Config.default.halfWrapper = false :=
    ⟨rfl, rfl⟩
  have converts := writes_convertNamed (r := oneRequest s) (Grown.refl (oneFile s)) whole
    (kindOf_root s) h.hasSchema free
  have source : (oneFile s).source (oneRequest s) = "/" := rfl
  rw [source, h.writes] at converts
  cases converts with
  | error _ ends =>
    have all : Leads (convertAll (oneRequest s) .zod .default "/" "/" [s ++ ".proto"]) (oneFile s)
        (.error (.file .nameTooLong)) (oneFile s) := Leads.convertAll (ends.mapM_cons_error [])
    have run : Leads (oneRequest s).run (oneFile s) (.error (.file .nameTooLong)) (oneFile s) :=
      Leads.run_of_names (t := oneFile s) (r := oneRequest s) (kindOf_root s) (kindOf_root s) rfl
        reads all
    exact (run w tree).1

/-- A name of so many letters. -/
def letters (n : Nat) : String := String.ofList (List.replicate n 'a')

theorem isLongStem_letters {n : Nat} (h : n = 249) : IsLongStem (letters n) := by
  have only : ∀ c ∈ (letters n).toList, c = 'a' := fun c mem => by
    rw [letters, String.toList_ofList] at mem
    exact List.eq_of_mem_replicate mem
  refine ⟨?_, ?_, ?_, ?_⟩
  · exact fun mem => absurd (only _ mem) (by decide)
  · exact fun mem => absurd (only _ mem) (by decide)
  · exact fun mem => absurd (only _ mem) (by decide)
  · rw [← String.utf8Len_toList, letters, String.toList_ofList, ← h]
    clear h only
    induction n with
    | zero => rfl
    | succ n ih =>
      rw [List.replicate_succ, String.utf8Len_cons, ih]
      rfl

/-- **A file that is read well may have no output**: its folders are there, no folder has the path
of the output, and the name of the output is too long. -/
theorem run_letters :
    let w : World := ⟨oneFile (letters 249), "", ""⟩
    let r := oneRequest (letters 249)
    w.tree.kindOf (w.tree.source r) = .ok .folder ∧ w.tree.kindOf (w.tree.out r) = .ok .folder
      ∧ givenTarget r.target = .ok .zod
      ∧ (w.run (givenConfig r.verbose r.config)).1 = .ok .default
      ∧ (∀ input ∈ w.tree.inputs r,
          w.tree.document input = .ok ⟨"", "", [], [], []⟩
            ∧ w.tree.kindOf (normal (w.tree.output r .zod input)) ≠ .ok .folder)
      ∧ (w.run r.run).1 = .error (.file .nameTooLong) := by
  intro w r
  have h := isLongStem_letters (n := 249) rfl
  have loads : (w.run (givenConfig r.verbose r.config)).1 = .ok .default := by decide +kernel
  refine ⟨kindOf_root _, kindOf_root _, rfl, loads, ?_, h.run rfl loads⟩
  rw [h.inputs, List.forall_mem_singleton, h.output, h.kindOf_output]
  exact ⟨h.document, nofun⟩

end ProtoSchema
