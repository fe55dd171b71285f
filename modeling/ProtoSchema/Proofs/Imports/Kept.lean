import Mathlib.Data.List.Induction
import Mathlib.Data.List.Nodup
import ProtoSchema.Proofs.Document.Steps
import ProtoSchema.Proofs.Imports.Uses

/-!
# Proofs/Imports/Kept — which imports a file keeps

An import is registered under the stem of its path, and a comment right after it may move it under
another name.  Until then it takes the place of any import that has the stem for its name, even of
one that the comment would have set apart.  So a file keeps all its imports, in their order, just if
their names are distinct and no stem is the name of an import before (`imports_eq_iff`).
-/

namespace ProtoSchema

/-! ## Import statements -/

/-- A comment that names a package. -/
structure PackageComment where
  text : String
  package : String
  kind_eq : (Statement.ofText text).kind = .comment
  annotates : annotatedPackage? text = some package

/-- **An import statement with the path it imports**, perhaps with a comment right after it that
names its package. -/
structure ImportStatement where
  text : String
  path : String
  comment : Option PackageComment
  kind_eq : (Statement.ofText text).kind = .importing
  argument_eq : argument? (Statement.ofText text).tokens = some path

namespace ImportStatement

/-- The statement and the comment after it. -/
def texts (s : ImportStatement) : List String := s.text :: s.comment.toList.map PackageComment.text

/-- The name the import is registered under. -/
def stem (s : ImportStatement) : String := stemOfPath s.path

/-- **The name the import is meant to have**: the package of the comment, or else the stem. -/
def name (s : ImportStatement) : String := (s.comment.map PackageComment.package).getD s.stem

/-- **The import as it is meant**, nothing used from it. -/
def toImport (s : ImportStatement) : Import := ⟨s.name, directoryOfPath s.path, s.path, []⟩

/-- What the statement and the comment do to the import table. -/
def steps (s : ImportStatement) : List ImportStep :=
  .register s.path :: s.comment.toList.map fun c => .rekeyLast c.package

end ImportStatement

/-! ## Reading import statements -/

namespace Progress

/-- A statement that is no closing brace is accepted and takes its steps. -/
theorem exists_next (p : Progress) {text : String}
    (h : (Statement.ofText text).kind ≠ .closing) :
    ∃ q, p.next text = some q ∧ q.previous = some (Statement.ofText text).kind
      ∧ q.draft = p.draft.run (p.draft.steps p.previous (Statement.ofText text)) := by
  obtain ⟨q, step⟩ : ∃ q, p.next text = some q :=
    Option.ne_none_iff_exists'.1 fun refused => h (next_eq_none_iff.1 refused).1
  exact ⟨q, step, previous_of_next step, draft_of_next step⟩

/-- **An import statement does its steps to the import table** and nothing else. -/
theorem exists_run_texts (p : Progress) (s : ImportStatement) :
    ∃ q, p.run s.texts = some q ∧ q.draft = p.draft.run (s.steps.map .imports) := by
  have accepted : (Statement.ofText s.text).kind ≠ .closing := by simp [s.kind_eq]
  obtain ⟨q, next, previous, draft⟩ := exists_next p accepted
  have registers : p.draft.steps p.previous (Statement.ofText s.text)
      = [.imports (.register s.path)] := by
    simp [Draft.steps, s.kind_eq, s.argument_eq]
  rw [registers] at draft
  rw [ImportStatement.texts, ImportStatement.steps, run_cons_of_next next]
  cases s.comment with
  | none => exact ⟨q, rfl, draft⟩
  | some c =>
    have accepted' : (Statement.ofText c.text).kind ≠ .closing := by simp [c.kind_eq]
    obtain ⟨r, next', -, draft'⟩ := exists_next q accepted'
    have moves : q.draft.steps q.previous (Statement.ofText c.text)
        = [.imports (.rekeyLast c.package)] := by
      simp [Draft.steps, c.kind_eq, previous, s.kind_eq, Statement.text_ofText, c.annotates]
    rw [moves, draft] at draft'
    exact ⟨r, run_cons_of_next next', draft'⟩

theorem exists_run_flatMap_texts (p : Progress) (ss : List ImportStatement) :
    ∃ q, p.run (ss.flatMap ImportStatement.texts) = some q
      ∧ q.draft = p.draft.run ((ss.flatMap ImportStatement.steps).map .imports) := by
  induction ss generalizing p with
  | nil => exact ⟨p, rfl, rfl⟩
  | cons s ss ih =>
    obtain ⟨q, first, draft⟩ := exists_run_texts p s
    obtain ⟨r, rest, draft'⟩ := ih q
    refine ⟨r, ?_, ?_⟩
    · rw [List.flatMap_cons, run_append_of_run first, rest]
    · rw [draft', draft, List.flatMap_cons, List.map_append, Draft.run_append]

end Progress

/-- **Import statements make a document**, whose imports are what their steps come to. -/
theorem Document.exists_ofStatements_texts (ss : List ImportStatement) :
    ∃ d, ofStatements (ss.flatMap ImportStatement.texts) = .ok d
      ∧ d.imports = (ImportTable.empty.run (ss.flatMap ImportStatement.steps)).entries := by
  obtain ⟨p, run, draft⟩ := Progress.exists_run_flatMap_texts .start ss
  have imports := Draft.imports_run Draft.empty ((ss.flatMap ImportStatement.steps).map .imports)
  have scopes := Draft.scopes_run Draft.empty ((ss.flatMap ImportStatement.steps).map .imports)
  have kept : ∀ steps : List ImportStep,
      (steps.map DraftStep.imports).filterMap DraftStep.import? = steps := fun steps => by
    rw [List.filterMap_map]
    exact List.filterMap_some
  have none : ∀ steps : List ImportStep,
      (steps.map DraftStep.imports).filterMap DraftStep.scope? = [] := fun steps => by
    rw [List.filterMap_map]
    exact List.filterMap_eq_nil_iff.2 fun _ _ => rfl
  rw [kept] at imports
  rw [none] at scopes
  have draft : p.draft = Draft.empty.run ((ss.flatMap ImportStatement.steps).map .imports) := draft
  have closed : p.draft.scopes.frames = [] := by
    rw [draft, scopes]
    rfl
  have finished := Draft.finish_eq_ok_iff.2 ⟨closed, rfl⟩
  refine ⟨_, ofStatements_eq_ok_iff.2 ⟨p, run, finished⟩, ?_⟩
  rw [draft, imports]
  rfl

/-! ## Fresh and taken names -/

namespace ImportTable

variable {t : ImportTable} {s : ImportStatement} {ss : List ImportStatement}

theorem length_insertInto_of_mem (new : Import) {is : List Import}
    (taken : new.name ∈ is.map Import.name) : (insertInto new is).length = is.length := by
  have names := congrArg List.length (names_insertInto_of_mem new taken)
  rwa [List.length_map, List.length_map] at names

/-- Moving an import makes none. -/
theorem length_rekeyLast_le (t : ImportTable) (name : String) :
    (t.apply (.rekeyLast name)).2.entries.length ≤ t.entries.length := by
  obtain ⟨entries⟩ := t
  rcases List.eq_nil_or_concat' entries with rfl | ⟨init, last, rfl⟩
  · exact Nat.le_refl 0
  · rw [apply_rekeyLast_concat, insert, List.length_append]
    by_cases taken : name ∈ init.map Import.name
    · rw [length_insertInto_of_mem { last with name } taken]
      exact Nat.le_add_right _ _
    · rw [insertInto_of_not_mem { last with name } taken, List.length_append]
      exact Nat.le_refl _

/-- The import just registered under a fresh stem is the one that a comment moves. -/
theorem apply_rekeyLast_register {path name : String} (fresh : stemOfPath path ∉ t.names) :
    ((t.register path).apply (.rekeyLast name)).2.entries
      = insertInto ⟨name, directoryOfPath path, path, []⟩ t.entries := by
  have registered : t.register path = ⟨t.entries ++ [Import.ofPath path]⟩ :=
    congrArg ImportTable.mk (insertInto_of_not_mem (Import.ofPath path) fresh)
  rw [registered, apply_rekeyLast_concat]
  rfl

/-- **An import whose stem and name are fresh is kept**, after the others. -/
theorem entries_run_steps (stem : s.stem ∉ t.names) (name : s.name ∉ t.names) :
    (t.run s.steps).entries = t.entries ++ [s.toImport] := by
  obtain ⟨text, path, _ | c, kind, argument⟩ := s
  · exact insertInto_of_not_mem (Import.ofPath path) stem
  · refine (apply_rekeyLast_register stem).trans ?_
    exact insertInto_of_not_mem ⟨c.package, directoryOfPath path, path, []⟩ name

/-- **An import whose stem or name is taken costs an import.** -/
theorem length_run_steps_le (taken : s.stem ∈ t.names ∨ s.name ∈ t.names) :
    (t.run s.steps).entries.length ≤ t.entries.length := by
  obtain ⟨text, path, _ | c, kind, argument⟩ := s
  · have stem : stemOfPath path ∈ t.names := taken.elim id id
    exact Nat.le_of_eq (length_insertInto_of_mem (Import.ofPath path) stem)
  · by_cases stem : stemOfPath path ∈ t.names
    · refine Nat.le_trans (length_rekeyLast_le (t.register path) c.package) ?_
      exact Nat.le_of_eq (length_insertInto_of_mem (Import.ofPath path) stem)
    · have name : c.package ∈ t.names := taken.resolve_left stem
      have moved : (t.run (ImportStatement.steps ⟨text, path, some c, kind, argument⟩)).entries
          = insertInto ⟨c.package, directoryOfPath path, path, []⟩ t.entries :=
        apply_rekeyLast_register stem
      rw [moved]
      exact Nat.le_of_eq
        (length_insertInto_of_mem ⟨c.package, directoryOfPath path, path, []⟩ name)

/-! ## All imports kept -/

/-- **No import takes the name of one before it**, neither for good nor while it waits for its
comment. -/
def AllFresh (ss : List ImportStatement) : Prop :=
  (ss.map ImportStatement.name).Nodup ∧ ss.Pairwise fun s t => s.name ≠ t.stem

theorem allFresh_concat : AllFresh (ss ++ [s]) ↔ AllFresh ss
    ∧ s.stem ∉ ss.map ImportStatement.name ∧ s.name ∉ ss.map ImportStatement.name := by
  simp only [AllFresh, List.map_append, List.map_singleton, List.nodup_append,
    List.pairwise_append, List.nodup_singleton, List.pairwise_singleton, List.mem_singleton,
    List.mem_map, true_and, forall_eq]
  constructor
  · rintro ⟨⟨nodup, names⟩, stems, stem⟩
    refine ⟨⟨nodup, stems⟩, ?_, ?_⟩
    · rintro ⟨r, hr, same⟩
      exact stem r hr same
    · rintro ⟨r, hr, same⟩
      exact names _ ⟨r, hr, rfl⟩ same
  · rintro ⟨⟨nodup, stems⟩, stem, name⟩
    refine ⟨⟨nodup, ?_⟩, stems, fun r hr same => stem ⟨r, hr, same⟩⟩
    rintro _ ⟨r, hr, rfl⟩ same
    exact name ⟨r, hr, same⟩

theorem run_flatMap_concat (ss : List ImportStatement) (s : ImportStatement) :
    empty.run ((ss ++ [s]).flatMap ImportStatement.steps)
      = (empty.run (ss.flatMap ImportStatement.steps)).run s.steps := by
  rw [List.flatMap_append, List.flatMap_singleton, run_append]

/-- Fresh imports are kept, in their order. -/
theorem entries_run_of_allFresh (h : AllFresh ss) :
    (empty.run (ss.flatMap ImportStatement.steps)).entries = ss.map ImportStatement.toImport := by
  induction ss using List.reverseRecOn with
  | nil => rfl
  | append_singleton ss s ih =>
    obtain ⟨before, stem, name⟩ := allFresh_concat.1 h
    have entries := ih before
    have names : (empty.run (ss.flatMap ImportStatement.steps)).names
        = ss.map ImportStatement.name := by
      rw [ImportTable.names, entries, List.map_map]
      rfl
    rw [← names] at stem name
    rw [run_flatMap_concat, entries_run_steps stem name, entries, List.map_append,
      List.map_singleton]

/-- There is no more than one import for each statement, and only fresh ones make as many. -/
theorem length_run_le_and_allFresh (ss : List ImportStatement) :
    (empty.run (ss.flatMap ImportStatement.steps)).entries.length ≤ ss.length
      ∧ ((empty.run (ss.flatMap ImportStatement.steps)).entries.length = ss.length →
        AllFresh ss) := by
  induction ss using List.reverseRecOn with
  | nil => exact ⟨Nat.le_refl 0, fun _ => ⟨List.nodup_nil, .nil⟩⟩
  | append_singleton ss s ih =>
    obtain ⟨bound, fresh⟩ := ih
    rw [run_flatMap_concat, List.length_append, List.length_singleton]
    generalize table : empty.run (ss.flatMap ImportStatement.steps) = t at *
    by_cases taken : s.stem ∈ t.names ∨ s.name ∈ t.names
    · have short := length_run_steps_le taken
      exact ⟨by omega, fun full => absurd full (by omega)⟩
    · obtain ⟨stem, name⟩ := not_or.1 taken
      rw [entries_run_steps stem name, List.length_append, List.length_singleton]
      refine ⟨by omega, fun full => ?_⟩
      have before := fresh (by omega)
      have names : t.names = ss.map ImportStatement.name := by
        rw [← table, ImportTable.names, entries_run_of_allFresh before, List.map_map]
        rfl
      rw [names] at stem name
      exact allFresh_concat.2 ⟨before, stem, name⟩

end ImportTable

namespace Document

/-- **Of a file of import statements every import is kept, in the order of the statements, just if
the names they are meant to have are distinct and none is the stem of a later one.** -/
theorem imports_eq_iff (ss : List ImportStatement) :
    ∃ d, ofStatements (ss.flatMap ImportStatement.texts) = .ok d
      ∧ (d.imports = ss.map ImportStatement.toImport
        ↔ (ss.map ImportStatement.name).Nodup ∧ ss.Pairwise fun s t => s.name ≠ t.stem) := by
  obtain ⟨d, read, imports⟩ := exists_ofStatements_texts ss
  refine ⟨d, read, ?_⟩
  rw [imports]
  refine ⟨fun kept => ?_, ImportTable.entries_run_of_allFresh⟩
  refine (ImportTable.length_run_le_and_allFresh ss).2 ?_
  rw [kept, List.length_map]

/-- Two imports, and a third with the stem of the first that is meant to have another name. -/
def stemTwice : List ImportStatement :=
  [⟨"import \"a.proto\"", "a.proto", none, by decide +kernel, by decide +kernel⟩,
    ⟨"import \"b.proto\"", "b.proto", none, by decide +kernel, by decide +kernel⟩,
    ⟨"import \"dir/a.proto\"", "dir/a.proto",
      some ⟨"// package: c", "c", by decide +kernel, by decide +kernel⟩,
      by decide +kernel, by decide +kernel⟩]

/-- **An import is lost to another of its stem**, and a third is moved in place of that one, though
all are meant to have different names. -/
theorem imports_stemTwice :
    (stemTwice.map ImportStatement.name).Nodup
      ∧ stemTwice.flatMap ImportStatement.texts
        = ["import \"a.proto\"", "import \"b.proto\"", "import \"dir/a.proto\"", "// package: c"]
      ∧ ∃ d, ofStatements (stemTwice.flatMap ImportStatement.texts) = .ok d
        ∧ d.imports = [⟨"a", "dir", "dir/a.proto", []⟩, ⟨"c", ".", "b.proto", []⟩]
        ∧ d.imports ≠ stemTwice.map ImportStatement.toImport := by
  refine ⟨by decide +kernel, rfl, ⟨"", "", [⟨"a", "dir", "dir/a.proto", []⟩,
    ⟨"c", ".", "b.proto", []⟩], [], []⟩, ?_, rfl, ?_⟩ <;> decide +kernel

end Document

end ProtoSchema
