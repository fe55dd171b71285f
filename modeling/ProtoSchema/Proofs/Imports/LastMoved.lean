import ProtoSchema.Proofs.Imports.Usage

/-!
# Proofs/Imports/LastMoved — whether the import just registered is the one that is moved

What is moved under another name is the last import of the table.  An import that is registered
under a fresh name goes to the end, but one whose name is taken goes where the other one was.  So it
is the import just registered that is moved unless its name was taken by another one than the last
(`moves_registering_iff`).
-/

namespace ProtoSchema.ImportTable

open TypeRef

/-! ## Imports by name -/

/-- **The import of a name.** -/
def get? (t : ImportTable) (name : String) : Option Import := t.entries.find? (·.name = name)

/-- **The second table is the first with the import of the one name moved under the other**, where
it takes the place of what was there. -/
structure Moves (t t' : ImportTable) (old new : String) : Prop where
  moved : t'.get? new = (t.get? old).map fun i => { i with name := new }
  freed : old ≠ new → t'.get? old = none
  others : ∀ name, name ≠ old → name ≠ new → t'.get? name = t.get? name

variable {t : ImportTable} {init : List Import} {last : Import} {k : String}

theorem get?_eq_none_iff : t.get? k = none ↔ k ∉ t.names := by
  simp [get?, names]

theorem get?_insert (t : ImportTable) (i : Import) (k : String) :
    (t.insert i).get? k = if i.name = k then some i else t.get? k := by
  obtain ⟨is⟩ := t
  change (insertInto i is).find? _ = if i.name = k then some i else is.find? _
  induction is with
  | nil => by_cases hit : i.name = k <;> simp [insertInto, hit]
  | cons j is ih =>
    unfold insertInto
    by_cases same : j.name = i.name
    · rw [if_pos same, List.find?_cons, List.find?_cons, same]
      by_cases hit : i.name = k <;> simp [hit]
    · rw [if_neg same, List.find?_cons, List.find?_cons, ih]
      by_cases hit : j.name = k
      · have other : i.name ≠ k := fun e => same (hit.trans e.symm)
        simp [hit, other]
      · simp [hit]

theorem name_note (r : TypeRef) (i : Import) : (note r i).name = i.name := by
  unfold note
  split_ifs
  · exact name_noteUse _ _
  · rfl

theorem name_foldl_note (refs : List TypeRef) (i : Import) :
    (refs.foldl (fun i r => note r i) i).name = i.name := by
  induction refs generalizing i with
  | nil => rfl
  | cons r refs ih => exact (ih (note r i)).trans (name_note r i)

/-- Resolving leaves each import under its name. -/
theorem get?_run_of_resolves (h : t.Distinct) {steps : List ImportStep}
    (resolves : ∀ s ∈ steps, isResolve s = true) (k : String) :
    (t.run steps).get? k
      = (t.get? k).map fun i =>
        (steps.filterMap ImportStep.ref?).foldl (fun i r => note r i) i := by
  rw [get?, entries_run_of_resolves h resolves, List.find?_map, get?]
  refine congrArg (Option.map _) (congrArg (List.find? · t.entries) (funext fun i => ?_))
  simp only [Function.comp_apply, name_foldl_note]

/-! ## Moving the last import -/

theorem names_getLast?_concat :
    (ImportTable.mk (init ++ [last])).names.getLast? = some last.name := by
  simp [names]

/-- The last import is found by its name, the others by theirs. -/
theorem get?_concat (h : Distinct ⟨init ++ [last]⟩) (k : String) :
    get? ⟨init ++ [last]⟩ k = if last.name = k then some last else get? ⟨init⟩ k := by
  have apart : get? ⟨init ++ [last]⟩ k = (get? ⟨init⟩ k).or (get? ⟨[last]⟩ k) := List.find?_append
  rw [apart]
  by_cases same : last.name = k
  · subst same
    have none : get? ⟨init⟩ last.name = none := get?_eq_none_iff.2 h.last_not_mem
    rw [none, if_pos rfl]
    simp [get?]
  · have none : get? ⟨[last]⟩ k = none := by simp [get?, same]
    rw [none, if_neg same, Option.or_none]

/-- **It is the last import that is moved.** -/
theorem get?_apply_rekeyLast (h : Distinct ⟨init ++ [last]⟩) (new k : String) :
    ((ImportTable.mk (init ++ [last])).apply (.rekeyLast new)).2.get? k
      = if new = k then some { last with name := new }
        else if last.name = k then none else get? ⟨init ++ [last]⟩ k := by
  rw [apply_rekeyLast_concat, get?_insert, get?_concat h]
  split_ifs with there here
  · rfl
  · exact get?_eq_none_iff.2 (here ▸ h.last_not_mem)
  · rfl

theorem moves_iff_getLast? (h : t.Distinct) {old : String} (mem : old ∈ t.names) (new : String) :
    Moves t (t.apply (.rekeyLast new)).2 old new ↔ t.names.getLast? = some old := by
  obtain ⟨entries⟩ := t
  rcases List.eq_nil_or_concat' entries with rfl | ⟨init, last, rfl⟩
  · exact absurd mem List.not_mem_nil
  rw [names_getLast?_concat, Option.some.injEq]
  have after := get?_apply_rekeyLast h new
  constructor
  · intro moves
    by_contra other
    by_cases same : old = new
    · -- The last import is gone, though it was not the one to be moved.
      have apart : new ≠ last.name := fun e => other (e.symm.trans same.symm)
      have kept := moves.others last.name other apart.symm
      rw [after, if_neg apart, if_pos rfl, get?_concat h, if_pos rfl] at kept
      exact nomatch kept
    · have freed := moves.freed same
      rw [after, if_neg (Ne.symm same), if_neg other, get?_eq_none_iff] at freed
      exact freed mem
  · rintro rfl
    refine ⟨?_, fun ne => ?_, fun name here there => ?_⟩
    · rw [after, if_pos rfl, get?_concat h, if_pos rfl]
      rfl
    · rw [after, if_neg (Ne.symm ne), if_pos rfl]
    · rw [after, if_neg (Ne.symm there), if_neg (Ne.symm here)]

/-! ## The import just registered -/

/-- The table with a path registered and tokens resolved after it. -/
def registering (t : ImportTable) (path : String) (tokens : List String) : ImportTable :=
  t.run (.register path :: tokens.map .resolve)

theorem isResolve_of_mem_map (tokens : List String) :
    ∀ s ∈ tokens.map ImportStep.resolve, isResolve s = true := by
  simp [isResolve]

theorem names_registering (t : ImportTable) (path : String) (tokens : List String) :
    (t.registering path tokens).names = (t.register path).names :=
  names_run_of_resolves (t.register path) (isResolve_of_mem_map tokens)

theorem mem_names_registering (t : ImportTable) (path : String) (tokens : List String) :
    stemOfPath path ∈ (t.registering path tokens).names := by
  rw [names_registering]
  exact mem_names_insertInto.2 (.inl rfl)

/-- The path is under its stem, with the uses of the tokens. -/
theorem get?_registering (h : t.Distinct) (path : String) (tokens : List String) :
    (t.registering path tokens).get? (stemOfPath path)
      = some ⟨stemOfPath path, directoryOfPath path, path,
          usesOf (stemOfPath path) (tokens.map ofToken)⟩ := by
  have refs : (tokens.map ImportStep.resolve).filterMap ImportStep.ref? = tokens.map ofToken := by
    rw [List.filterMap_map, ← List.filterMap_eq_map]
    rfl
  have registered : (t.register path).get? (stemOfPath path) = some (Import.ofPath path) := by
    rw [register, get?_insert]
    exact if_pos rfl
  have resolved : (t.registering path tokens).get? (stemOfPath path) = _ :=
    get?_run_of_resolves (h.apply (.register path)) (isResolve_of_mem_map tokens) _
  have after : (t.apply (.register path)).2 = t.register path := rfl
  rw [resolved, after, registered, refs, Option.map_some, foldl_note rfl]
  rfl

/-- The stem is last just if it is new to the table or was last before. -/
theorem getLast?_names_registering (t : ImportTable) (path : String) (tokens : List String) :
    (t.registering path tokens).names.getLast? = some (stemOfPath path)
      ↔ (stemOfPath path ∈ t.names → t.names.getLast? = some (stemOfPath path)) := by
  rw [names_registering]
  by_cases taken : stemOfPath path ∈ t.names
  · have names : (t.register path).names = t.names :=
      names_insertInto_of_mem (Import.ofPath path) taken
    rw [names]
    exact ⟨fun last _ => last, fun last => last taken⟩
  · have entries : (t.register path).entries = t.entries ++ [Import.ofPath path] :=
      insertInto_of_not_mem (Import.ofPath path) taken
    refine ⟨fun _ mem => absurd mem taken, fun _ => ?_⟩
    rw [ImportTable.names, entries, List.map_append]
    exact List.getLast?_concat

/-- **The import just registered is the one that is moved, just if its stem was new or the name of
the last import.**  Before that the table has it under its stem, with the uses noted since. -/
theorem moves_registering_iff (before : List ImportStep) (path : String) (tokens : List String)
    (new : String) :
    ((empty.run before).registering path tokens).get? (stemOfPath path)
        = some ⟨stemOfPath path, directoryOfPath path, path,
            usesOf (stemOfPath path) (tokens.map ofToken)⟩
      ∧ (Moves ((empty.run before).registering path tokens)
          (((empty.run before).registering path tokens).apply (.rekeyLast new)).2
          (stemOfPath path) new
        ↔ (stemOfPath path ∈ (empty.run before).names
          → (empty.run before).names.getLast? = some (stemOfPath path))) := by
  have distinct := distinct_empty.run before
  have after : ((empty.run before).registering path tokens).Distinct := distinct.run _
  refine ⟨get?_registering distinct path tokens, ?_⟩
  rw [moves_iff_getLast? after (mem_names_registering _ path tokens),
    getLast?_names_registering]

/-- Two imports, the first of which is registered again with another path. -/
def registeredAgain : ImportTable :=
  (empty.run [.register "a.proto", .register "b.proto"]).registering "dir/a.proto" []

/-- **Another import is moved** than the one just registered. -/
theorem not_moves_registeredAgain :
    registeredAgain.entries = [⟨"a", "dir", "dir/a.proto", []⟩, ⟨"b", ".", "b.proto", []⟩]
      ∧ (registeredAgain.apply (.rekeyLast "c")).2.entries
        = [⟨"a", "dir", "dir/a.proto", []⟩, ⟨"c", ".", "b.proto", []⟩]
      ∧ ¬ Moves registeredAgain (registeredAgain.apply (.rekeyLast "c")).2
          (stemOfPath "dir/a.proto") "c" := by
  refine ⟨by decide +kernel, by decide +kernel, fun moves => ?_⟩
  exact absurd (moves.freed (by decide +kernel)) (by decide +kernel)

end ProtoSchema.ImportTable
