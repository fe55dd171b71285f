import Mathlib.Data.List.Induction
import ProtoSchema.Proofs.Imports.Mentions

/-!
# Proofs/Imports/Usage — which uses of an import a file notes

An import notes the types that are resolved under the name it has then.  If the imports of a file
come first they have their last names by then, and so each notes the types that the document refers
to under its name, once and in the order in which the statements first do so
(`used_of_importsFirst`).
-/

namespace ProtoSchema

open TypeRef

/-! ## Uses in order -/

namespace ImportTable

variable {t : ImportTable} {i : Import} {steps : List ImportStep}

/-- The import after a reference was used. -/
def note (r : TypeRef) (i : Import) : Import :=
  if r.qualifier = some i.name then noteUse r.localName i else i

/-- Where the names are distinct, no import but the one of the name is changed. -/
theorem noteUseIn_eq_map (name localName : String) :
    ∀ {is : List Import}, (is.map Import.name).Nodup →
      noteUseIn name localName is = is.map (note ⟨localName, some name⟩)
  | [], _ => rfl
  | i :: is, h => by
      obtain ⟨fresh, others⟩ := List.nodup_cons.1 h
      rw [noteUseIn, List.map_cons]
      split_ifs with same
      · have rest : ∀ j ∈ is, note ⟨localName, some name⟩ j = j := fun j hj =>
          if_neg fun e => fresh (List.mem_map.2 ⟨j, hj, (same.trans (Option.some.inj e)).symm⟩)
        rw [note, if_pos (congrArg some same.symm), List.map_congr_left rest, List.map_id']
      · have other : note ⟨localName, some name⟩ i = i :=
          if_neg fun e => same (Option.some.inj e).symm
        rw [other, noteUseIn_eq_map name localName others]

theorem entries_use (h : t.Distinct) (r : TypeRef) :
    (t.use r).entries = t.entries.map (note r) := by
  obtain ⟨localName, _ | name⟩ := r
  · exact (List.map_id'' (fun i => if_neg (by simp)) t.entries).symm
  · exact noteUseIn_eq_map name localName h

/-- Resolving notes each reference in every import. -/
theorem entries_run_of_resolves (h : t.Distinct) (resolves : ∀ s ∈ steps, isResolve s = true) :
    (t.run steps).entries
      = t.entries.map fun i => (steps.filterMap ImportStep.ref?).foldl (fun i r => note r i) i := by
  induction steps generalizing t with
  | nil => exact (List.map_id _).symm
  | cons step steps ih =>
    obtain ⟨first, others⟩ := List.forall_mem_cons.1 resolves
    cases step with
    | resolve token =>
      have distinct : (t.use (ofToken token)).Distinct := h.apply (.resolve token)
      refine (ih distinct others).trans ?_
      rw [entries_use h, List.map_map]
      rfl
    | register path | rekeyLast new => exact absurd first Bool.false_ne_true

/-- The types that are used under a name, each once, by their first uses. -/
def usesOf (name : String) (refs : List TypeRef) : List String :=
  ((refs.filter (·.qualifier = some name)).map TypeRef.localName).eraseDups

/-- One more use is noted if it is of the name and new. -/
theorem usesOf_concat (name : String) (refs : List TypeRef) (r : TypeRef) :
    usesOf name (refs ++ [r])
      = if r.qualifier = some name ∧ r.localName ∉ usesOf name refs then
          usesOf name refs ++ [r.localName]
        else usesOf name refs := by
  simp only [usesOf, List.filter_append, List.map_append, List.eraseDups_append,
    List.mem_eraseDups]
  by_cases same : r.qualifier = some name
  · by_cases noted : r.localName ∈ (refs.filter (·.qualifier = some name)).map TypeRef.localName
    · simp [same, noted, List.removeAll]
    · simp [same, noted, List.removeAll, List.eraseDups_cons]
  · simp [same]

/-- **An import notes the types that are used under its name**, each once. -/
theorem foldl_note (unused : i.used = []) (refs : List TypeRef) :
    refs.foldl (fun i r => note r i) i = { i with used := usesOf i.name refs } := by
  induction refs using List.reverseRecOn with
  | nil =>
    obtain ⟨name, directory, path, used⟩ := i
    obtain rfl : used = [] := unused
    rfl
  | append_singleton refs r ih =>
    rw [List.foldl_concat, ih, usesOf_concat]
    by_cases same : r.qualifier = some i.name
    · by_cases noted : r.localName ∈ usesOf i.name refs <;> simp [note, noteUse, same, noted]
    · simp [note, same]

/-- Nothing is used before the first reference is resolved. -/
theorem used_run_of_moves (moves : ∀ s ∈ steps, isResolve s = false)
    (hi : i ∈ (empty.run steps).entries) : i.used = [] := by
  refine List.eq_nil_iff_forall_not_mem.2 fun n used => ?_
  obtain ⟨before, token, after, -, rfl, -⟩ := (uses_run_empty_iff steps).1 ⟨i, hi, rfl, used⟩
  exact absurd (moves (.resolve token) (by simp)) (by simp [isResolve])

/-- **If all references are resolved after the last registration and move, an import notes those
under its name.** -/
theorem used_run_of_resolves_last {front back : List ImportStep}
    (moves : ∀ s ∈ front, isResolve s = false) (resolves : ∀ s ∈ back, isResolve s = true)
    (hi : i ∈ (empty.run (front ++ back)).entries) :
    i.used = usesOf i.name ((front ++ back).filterMap ImportStep.ref?) := by
  rw [run_append, entries_run_of_resolves (distinct_empty.run front) resolves] at hi
  obtain ⟨j, hj, rfl⟩ := List.mem_map.1 hi
  have none : front.filterMap ImportStep.ref? = [] := by
    refine List.filterMap_eq_nil_iff.2 fun s hs => ?_
    cases s with
    | resolve token => exact absurd (moves _ hs) (by simp [isResolve])
    | register path | rekeyLast new => rfl
  rw [List.filterMap_append, none, List.nil_append, foldl_note (used_run_of_moves moves hj)]

end ImportTable

namespace Document

variable {texts : List String} {d : Document}

/-- **If imports come first, each notes the types that are referred to under its name**, once and in
the order in which the statements first do so. -/
theorem used_of_importsFirst (h : ofStatements texts = .ok d) (first : ImportsFirst texts) :
    Mention.part false (mentions texts) = Entry.refsOf d.entries
      ∧ Mention.part true (mentions texts) = d.services.flatMap Service.refs
      ∧ ∀ i ∈ d.imports,
        i.used = ImportTable.usesOf i.name ((mentions texts).map Mention.type) := by
  obtain ⟨entries, services⟩ := part_mentions h
  refine ⟨entries, services, fun i hi => ?_⟩
  obtain ⟨front, back, split, moves, resolves⟩ := exists_importHistory_split first h
  rw [imports_of_ofStatements h, split] at hi
  rw [← refs_importHistory, split]
  exact ImportTable.used_run_of_resolves_last moves resolves hi

/-- Statements that refer to an import in a service, in a nested message and once more. -/
def sharedTexts : List String :=
  ["import \"lib/shared.proto\"", "// package: acme.shared", "service S \x7b",
    "rpc Do (acme.shared.Q) returns (acme.shared.R)", "\x7d", "message A \x7b", "message B \x7b",
    "acme.shared.T t = 1", "other.U u = 2", "\x7d", "acme.shared.Q q = 1", "\x7d"]

/-- The document of these statements. -/
def shared : Document where
  version := ""
  package := ""
  imports := [⟨"acme.shared", "lib", "lib/shared.proto", ["Q", "R", "T"]⟩]
  entries := [.message "A" [.message "B" [
      .field ⟨"t", ⟨"T", some "acme.shared"⟩, 1, 0, false, false⟩,
      .field ⟨"u", ⟨"U", some "other"⟩, 2, 1, false, false⟩],
    .field ⟨"q", ⟨"Q", some "acme.shared"⟩, 1, 0, false, false⟩]]
  services := [⟨"S", [.rpc ⟨"Do", ⟨"Q", some "acme.shared"⟩, ⟨"R", some "acme.shared"⟩⟩]⟩]

/-- The import notes the types of the method first, and none of them twice. -/
theorem used_shared :
    ofStatements sharedTexts = .ok shared ∧ ImportsFirst sharedTexts
      ∧ (mentions sharedTexts).map (·.type.localName) = ["Q", "R", "T", "U", "Q"]
      ∧ ImportTable.usesOf "acme.shared" ((mentions sharedTexts).map Mention.type)
        = ["Q", "R", "T"] := by
  have read : ofStatements sharedTexts = .ok shared := by decide +kernel
  have first : ImportsFirst sharedTexts := by decide +kernel
  have used := (used_of_importsFirst read first).2.2 _ (List.mem_singleton_self _)
  exact ⟨read, first, by decide +kernel, used.symm⟩

end Document

end ProtoSchema
