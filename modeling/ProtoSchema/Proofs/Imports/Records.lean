import Mathlib.Data.List.Induction
import ProtoSchema.Proofs.Imports.Uses

/-!
# Proofs/Imports/Records — what the imports of a table say

Whatever was done to a table, its imports have names of their own, and each tells a path that was
registered, with the folder of that path, and types that were resolved, each once.  Resolving a
token adds at most one type to one import and changes nothing else (`recorded_run`).
-/

namespace ProtoSchema.ImportTable

open TypeRef

/-! ## Folders -/

/-- **The folder of a path**: what stands before its last slash, or a point if it has none. -/
def IsFolder (folder path : String) : Prop :=
  (∃ file, path = folder ++ "/" ++ file ∧ '/' ∉ file.toList)
    ∨ ('/' ∉ path.toList ∧ folder = ".")

/-- A text that holds a character is cut in two by its last one. -/
theorem exists_last_of_mem {c : Char} {cs : List Char} (h : c ∈ cs) :
    ∃ a b, cs = a ++ c :: b ∧ c ∉ b := by
  obtain ⟨a, b, split, free⟩ := List.eq_append_cons_of_mem (List.mem_reverse.2 h)
  refine ⟨b.reverse, a.reverse, ?_, by simpa using free⟩
  rw [← List.reverse_reverse cs, split]
  simp

theorem isFolder_directoryOfPath (path : String) : IsFolder (directoryOfPath path) path := by
  by_cases slash : '/' ∈ path.toList
  · obtain ⟨folder, file, split, free⟩ := exists_last_of_mem slash
    have parts : path.toList.splitOn '/' = folder.splitOn '/' ++ [file] := by
      rw [split, List.splitOn_append_cons_self, List.splitOn_eq_singleton free]
    have directory : directoryOfPath path = String.ofList folder := by
      rw [directoryOfPath, parts, List.dropLast_concat]
      split
      · next none => exact absurd none (List.splitOn_ne_nil '/' folder)
      · next s ss some => rw [← some, List.intercalate_splitOn]
    refine .inl ⟨String.ofList file, String.toList_injective ?_, by simpa using free⟩
    simp [directory, split]
  · refine .inr ⟨slash, ?_⟩
    rw [directoryOfPath, List.splitOn_eq_singleton slash]
    rfl

/-! ## Imports and their history -/

/-- **What an import says comes from the steps before.** -/
structure Recorded (steps : List ImportStep) (i : Import) : Prop where
  registered : .register i.path ∈ steps
  folder : IsFolder i.directory i.path
  once : i.used.Nodup
  resolved : ∀ n ∈ i.used, ∃ token q, .resolve token ∈ steps ∧ ofToken token = ⟨n, some q⟩

/-- **One use is noted**, in the import that the reference names, and nothing else is changed. -/
def Noted (t t' : ImportTable) (r : TypeRef) : Prop :=
  ∃ before i after, t.entries = before ++ i :: after ∧ r.qualifier = some i.name
    ∧ r.localName ∉ i.used
    ∧ t'.entries = before ++ { i with used := i.used ++ [r.localName] } :: after

section Steps

variable {t : ImportTable} {steps : List ImportStep} {i new : Import} {is : List Import}

/-- An insertion brings in no import but the new one. -/
theorem mem_of_mem_insertInto (h : i ∈ insertInto new is) : i = new ∨ i ∈ is := by
  induction is with
  | nil => exact .inl (List.mem_singleton.1 h)
  | cons j is ih =>
    unfold insertInto at h
    split_ifs at h
    · exact (List.mem_cons.1 h).imp_right (List.mem_cons_of_mem j)
    · rcases List.mem_cons.1 h with rfl | h
      · exact .inr List.mem_cons_self
      · exact (ih h).imp_right (List.mem_cons_of_mem j)

theorem noteUseIn_cases (name localName : String) (is : List Import) :
    noteUseIn name localName is = is
      ∨ ∃ before i after, is = before ++ i :: after ∧ i.name = name ∧ localName ∉ i.used
        ∧ noteUseIn name localName is
          = before ++ { i with used := i.used ++ [localName] } :: after := by
  induction is with
  | nil => exact .inl rfl
  | cons i is ih =>
    rw [noteUseIn]
    split_ifs with same
    · by_cases noted : localName ∈ i.used
      · exact .inl (by rw [noteUse, if_pos noted])
      · exact .inr ⟨[], i, is, rfl, same, noted, by rw [noteUse, if_neg noted]; rfl⟩
    · rcases ih with kept | ⟨before, j, after, rfl, named, fresh, noted⟩
      · exact .inl (by rw [kept])
      · exact .inr ⟨i :: before, j, after, rfl, named, fresh, by rw [noted]; rfl⟩

/-- **A reference changes nothing, or one use is noted.** -/
theorem use_cases (t : ImportTable) (r : TypeRef) : t.use r = t ∨ Noted t (t.use r) r := by
  obtain ⟨localName, _ | name⟩ := r
  · exact .inl rfl
  · rcases noteUseIn_cases name localName t.entries with kept | ⟨before, i, after, split, rfl, h⟩
    · exact .inl (congrArg ImportTable.mk kept)
    · exact .inr ⟨before, i, after, split, rfl, h⟩

theorem Recorded.mono (h : Recorded steps i) (more : List ImportStep) :
    Recorded (steps ++ more) i where
  registered := List.mem_append_left more h.registered
  folder := h.folder
  once := h.once
  resolved n hn := by
    obtain ⟨token, q, mem, ref⟩ := h.resolved n hn
    exact ⟨token, q, List.mem_append_left more mem, ref⟩

/-- A path that is registered is recorded, with no uses. -/
theorem recorded_ofPath {path : String} (h : .register path ∈ steps) :
    Recorded steps (.ofPath path) where
  registered := h
  folder := isFolder_directoryOfPath path
  once := List.nodup_nil
  resolved _ hn := absurd hn List.not_mem_nil

/-- Another name is not told by the import. -/
theorem Recorded.rename (h : Recorded steps i) (name : String) :
    Recorded steps { i with name } := ⟨h.registered, h.folder, h.once, h.resolved⟩

theorem Recorded.noted (h : Recorded steps i) {token q : String}
    (resolved : .resolve token ∈ steps) (qualifier : (ofToken token).qualifier = some q)
    (fresh : (ofToken token).localName ∉ i.used) :
    Recorded steps { i with used := i.used ++ [(ofToken token).localName] } where
  registered := h.registered
  folder := h.folder
  once := List.nodup_append.2 ⟨h.once, List.nodup_singleton _, fun n hn m hm => by
    obtain rfl := List.mem_singleton.1 hm
    exact ne_of_mem_of_not_mem hn fresh⟩
  resolved n hn := by
    rcases List.mem_append.1 hn with hn | hn
    · exact h.resolved n hn
    · obtain rfl := List.mem_singleton.1 hn
      exact ⟨token, q, resolved, by rw [← qualifier]⟩

/-- **A step leaves imports that the steps so far account for.** -/
theorem recorded_apply (h : ∀ i ∈ t.entries, Recorded steps i) (step : ImportStep) :
    ∀ i ∈ (t.apply step).2.entries, Recorded (steps ++ [step]) i := by
  have kept : ∀ i ∈ t.entries, Recorded (steps ++ [step]) i := fun i hi => (h i hi).mono [step]
  have here : step ∈ steps ++ [step] := by simp
  intro i hi
  cases step with
  | register path =>
    rcases mem_of_mem_insertInto hi with rfl | hi
    · exact recorded_ofPath here
    · exact kept i hi
  | rekeyLast name =>
    obtain ⟨entries⟩ := t
    rcases List.eq_nil_or_concat' entries with rfl | ⟨init, last, rfl⟩
    · exact absurd hi List.not_mem_nil
    · rw [apply_rekeyLast_concat] at hi
      rcases mem_of_mem_insertInto hi with rfl | hi
      · exact (kept last (by simp)).rename name
      · exact kept i (List.mem_append_left _ hi)
  | resolve token =>
    change i ∈ (t.use (ofToken token)).entries at hi
    rcases use_cases t (ofToken token) with same | ⟨before, j, after, split, named, fresh, noted⟩
    · exact kept i (same ▸ hi)
    · rw [noted] at hi
      rcases List.mem_append.1 hi with hi | hi
      · exact kept i (split ▸ List.mem_append_left _ hi)
      · rcases List.mem_cons.1 hi with rfl | hi
        · exact (kept j (by simp [split])).noted here named fresh
        · exact kept i (by simp [split, hi])

end Steps

/-! ## Any history -/

theorem recorded_of_mem_run (steps : List ImportStep) :
    ∀ i ∈ (empty.run steps).entries, Recorded steps i := by
  induction steps using List.reverseRecOn with
  | nil => exact fun i hi => absurd hi List.not_mem_nil
  | append_singleton steps step ih =>
    rw [run_append]
    exact recorded_apply ih step

/-- **The imports of a table have distinct names, and what they say comes from its history.**  A
token that is resolved then changes nothing, or its use is noted in the import of its qualifier. -/
theorem recorded_run (steps : List ImportStep) :
    (empty.run steps).names.Nodup
      ∧ (∀ i ∈ (empty.run steps).entries, Recorded steps i)
      ∧ ∀ token, ((empty.run steps).resolve token).2 = empty.run steps
        ∨ Noted (empty.run steps) ((empty.run steps).resolve token).2 (ofToken token) :=
  ⟨distinct_empty.run steps, recorded_of_mem_run steps, fun token =>
    use_cases (empty.run steps) (ofToken token)⟩

end ProtoSchema.ImportTable
