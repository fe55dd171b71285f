import Mathlib.Data.List.Nodup
import ProtoSchema.ImportTable.Step

/-!
# Proofs/Imports/Uses — which uses an import keeps

A use is noted in the import that has the right name at that moment, and goes with that import,
which may be moved under other names and is lost when another one takes its name.  `follow` gives
the name an import ends up with, and a type is used in an import at the end just if it was used
under the name the import had then (`uses_run_iff`).
-/

namespace ProtoSchema.ImportTable

open TypeRef

/-! ## Names and members after each operation -/

section Entries

variable {i new : Import} {is : List Import} {k m n q : String}

theorem mem_names_insertInto :
    k ∈ (insertInto new is).map Import.name ↔ k = new.name ∨ k ∈ is.map Import.name := by
  induction is with
  | nil => simp [insertInto]
  | cons j is ih =>
    unfold insertInto
    split_ifs with same
    · simp [same]
    · simp only [List.map_cons, List.mem_cons, ih]
      exact or_left_comm

/-- An import of a fresh name goes to the end. -/
theorem insertInto_of_not_mem (new : Import) :
    ∀ {is : List Import}, new.name ∉ is.map Import.name → insertInto new is = is ++ [new]
  | [], _ => rfl
  | i :: is, h => by
      rw [List.map_cons, List.mem_cons, not_or] at h
      rw [insertInto, if_neg (Ne.symm h.1), insertInto_of_not_mem new h.2, List.cons_append]

/-- An import of a taken name takes the place of the other. -/
theorem names_insertInto_of_mem (new : Import) :
    ∀ {is : List Import}, new.name ∈ is.map Import.name →
      (insertInto new is).map Import.name = is.map Import.name
  | i :: is, h => by
      rw [insertInto]
      split_ifs with same
      · simp [same]
      · rw [List.map_cons, List.mem_cons] at h
        have later := h.resolve_left (Ne.symm same)
        rw [List.map_cons, List.map_cons, names_insertInto_of_mem new later]

theorem nodup_insertInto (h : (is.map Import.name).Nodup) :
    ((insertInto new is).map Import.name).Nodup := by
  induction is with
  | nil => simp [insertInto]
  | cons j is ih =>
    unfold insertInto
    rw [List.map_cons, List.nodup_cons] at h
    split_ifs with same
    · rw [List.map_cons, List.nodup_cons, ← same]
      exact h
    · rw [List.map_cons, List.nodup_cons, mem_names_insertInto]
      exact ⟨fun e => e.elim same h.1, ih h.2⟩

/-- An insertion leaves the imports of other names. -/
theorem mem_insertInto (h : (is.map Import.name).Nodup) :
    i ∈ insertInto new is ↔ i = new ∨ (i ∈ is ∧ i.name ≠ new.name) := by
  induction is with
  | nil => simp [insertInto]
  | cons j is ih =>
    rw [List.map_cons, List.nodup_cons] at h
    unfold insertInto
    split_ifs with same
    · have others : i ∈ is → i.name ≠ new.name := fun hi e =>
        h.1 (List.mem_map.2 ⟨i, hi, e.trans same.symm⟩)
      simp only [List.mem_cons]
      constructor
      · rintro (rfl | hi)
        · exact .inl rfl
        · exact .inr ⟨.inr hi, others hi⟩
      · rintro (rfl | ⟨rfl | hi, ne⟩)
        · exact .inl rfl
        · exact absurd same ne
        · exact .inr hi
    · simp only [List.mem_cons, ih h.2]
      constructor
      · rintro (rfl | rfl | ⟨hi, ne⟩)
        · exact .inr ⟨.inl rfl, same⟩
        · exact .inl rfl
        · exact .inr ⟨.inr hi, ne⟩
      · rintro (rfl | ⟨rfl | hi, ne⟩)
        · exact .inr (.inl rfl)
        · exact .inl rfl
        · exact .inr (.inr ⟨hi, ne⟩)

@[simp] theorem name_noteUse (m : String) (i : Import) : (noteUse m i).name = i.name := by
  unfold noteUse
  split_ifs <;> rfl

theorem mem_used_noteUse : n ∈ (noteUse m i).used ↔ n ∈ i.used ∨ n = m := by
  unfold noteUse
  split_ifs with noted
  · exact ⟨.inl, fun h => h.elim id fun e => e ▸ noted⟩
  · simp

theorem names_noteUseIn (k m : String) (is : List Import) :
    (noteUseIn k m is).map Import.name = is.map Import.name := by
  induction is with
  | nil => rfl
  | cons i is ih =>
    unfold noteUseIn
    split_ifs
    · simp
    · simp [ih]

/-- Noting a use adds that use where an import has the name, and nothing else. -/
theorem exists_used_noteUseIn :
    (∃ i ∈ noteUseIn k m is, i.name = q ∧ n ∈ i.used)
      ↔ (∃ i ∈ is, i.name = q ∧ n ∈ i.used) ∨ (k = q ∧ m = n ∧ q ∈ is.map Import.name) := by
  induction is with
  | nil => simp [noteUseIn]
  | cons j is ih =>
    unfold noteUseIn
    split_ifs with same
    · rw [List.exists_mem_cons_iff, List.exists_mem_cons_iff, name_noteUse, mem_used_noteUse,
        List.map_cons, List.mem_cons]
      constructor
      · rintro (⟨name, used | use⟩ | others)
        · exact .inl (.inl ⟨name, used⟩)
        · exact .inr ⟨same.symm.trans name, use.symm, .inl name.symm⟩
        · exact .inl (.inr others)
      · rintro ((⟨name, used⟩ | others) | ⟨name, use, -⟩)
        · exact .inl ⟨name, .inl used⟩
        · exact .inr others
        · exact .inl ⟨same.trans name, .inr use.symm⟩
    · have other : k = q → (q = j.name ↔ False) := fun e => iff_false_intro fun e' =>
        same (e'.symm.trans e.symm)
      rw [List.exists_mem_cons_iff, List.exists_mem_cons_iff, ih, List.map_cons, List.mem_cons,
        or_assoc]
      refine or_congr_right (or_congr_right (and_congr_right fun name => ?_))
      rw [other name, false_or]

end Entries

/-! ## Steps -/

/-- The names of a table are distinct. -/
def Distinct (t : ImportTable) : Prop := t.names.Nodup

/-- The import of that name holds a use of that type. -/
def Uses (t : ImportTable) (name localName : String) : Prop :=
  ∃ i ∈ t.entries, i.name = name ∧ localName ∈ i.used

/-- The name that the import of this name has after a step; it has none if another import took its
place. -/
def followStep (t : ImportTable) (name : String) : ImportStep → Option String
  | .register path => if stemOfPath path = name then none else some name
  | .rekeyLast new =>
    if t.names.getLast? = some name then some new else if new = name then none else some name
  | .resolve _ => some name

/-- **The name that the import of this name has after some steps**, if it is still there. -/
def follow (t : ImportTable) (name : String) : List ImportStep → Option String
  | [] => some name
  | step :: steps => (t.followStep name step).bind fun name => (t.apply step).2.follow name steps

section Steps

variable {t : ImportTable} {step : ImportStep} {k n q : String}

theorem run_append (t : ImportTable) (xs ys : List ImportStep) :
    t.run (xs ++ ys) = (t.run xs).run ys := List.foldl_append

theorem names_use (t : ImportTable) (r : TypeRef) : (t.use r).names = t.names := by
  unfold use
  split
  · exact names_noteUseIn _ _ _
  · rfl

/-- A reference adds the use of its type where its qualifier is the name of an import. -/
theorem uses_use_iff {r : TypeRef} :
    (t.use r).Uses q n ↔ t.Uses q n ∨ (r = ⟨n, some q⟩ ∧ q ∈ t.names) := by
  obtain ⟨localName, _ | qualifier⟩ := r
  · simp [use]
  · have noted : (t.use ⟨localName, some qualifier⟩).Uses q n ↔ _ := exists_used_noteUseIn
    refine noted.trans (or_congr_right ?_)
    simp only [TypeRef.mk.injEq, Option.some.injEq, and_assoc, and_left_comm]
    rfl

/-- Registering loses the uses of the import whose name it takes. -/
theorem uses_register_iff (h : t.Distinct) {path : String} :
    (t.register path).Uses q n ↔ t.Uses q n ∧ stemOfPath path ≠ q := by
  constructor
  · rintro ⟨i, hi, rfl, used⟩
    rcases (mem_insertInto h).1 hi with rfl | ⟨hi, ne⟩
    · exact absurd used List.not_mem_nil
    · exact ⟨⟨i, hi, rfl, used⟩, Ne.symm ne⟩
  · rintro ⟨⟨i, hi, rfl, used⟩, ne⟩
    exact ⟨i, (mem_insertInto h).2 (.inr ⟨hi, Ne.symm ne⟩), rfl, used⟩

/-- Moving the last import takes its uses along and loses those of the import whose name it takes.
-/
theorem uses_insert_last_iff {last : Import} {init : List Import} {new : String}
    (h : Distinct ⟨init ++ [last]⟩) :
    (insert ⟨init⟩ { last with name := new }).Uses q n
      ↔ (new = q ∧ n ∈ last.used) ∨ (Uses ⟨init⟩ q n ∧ new ≠ q) := by
  have inits : (init.map Import.name).Nodup :=
    h.sublist ((List.sublist_append_left init [last]).map Import.name)
  constructor
  · rintro ⟨i, hi, rfl, used⟩
    rcases (mem_insertInto inits).1 hi with rfl | ⟨hi, ne⟩
    · exact .inl ⟨rfl, used⟩
    · exact .inr ⟨⟨i, hi, rfl, used⟩, Ne.symm ne⟩
  · rintro (⟨rfl, used⟩ | ⟨⟨i, hi, rfl, used⟩, ne⟩)
    · exact ⟨_, (mem_insertInto inits).2 (.inl rfl), rfl, used⟩
    · exact ⟨i, (mem_insertInto inits).2 (.inr ⟨hi, Ne.symm ne⟩), rfl, used⟩

/-- The last import shares its name with none before it. -/
theorem Distinct.last_not_mem {last : Import} {init : List Import}
    (h : Distinct ⟨init ++ [last]⟩) : last.name ∉ init.map Import.name := fun mem => by
  have names : (init.map Import.name ++ [last.name]).Nodup := by
    simpa [Distinct, names] using h
  exact (List.nodup_append.1 names).2.2 _ mem _ (List.mem_singleton_self _) rfl

theorem Distinct.ne_last {last : Import} {init : List Import} (h : Distinct ⟨init ++ [last]⟩)
    (used : Uses ⟨init⟩ k n) : last.name ≠ k := by
  obtain ⟨i, hi, rfl, -⟩ := used
  exact fun e => h.last_not_mem (e ▸ List.mem_map_of_mem hi)

theorem distinct_empty : empty.Distinct := List.nodup_nil

/-- No step makes two imports have one name. -/
theorem Distinct.apply (h : t.Distinct) (step : ImportStep) : (t.apply step).2.Distinct := by
  cases step with
  | register path => exact nodup_insertInto h
  | resolve token =>
    change (t.use (ofToken token)).names.Nodup
    rw [names_use]
    exact h
  | rekeyLast new =>
    unfold ImportTable.apply rekeyLast
    cases last : t.entries.getLast? with
    | none => exact h
    | some i =>
      refine nodup_insertInto ?_
      exact h.sublist ((List.dropLast_sublist t.entries).map Import.name)

theorem Distinct.run (h : t.Distinct) (steps : List ImportStep) : (t.run steps).Distinct := by
  induction steps generalizing t with
  | nil => exact h
  | cons step steps ih => exact ih (h.apply step)

theorem apply_rekeyLast_concat (init : List Import) (last : Import) (new : String) :
    ((ImportTable.mk (init ++ [last])).apply (.rekeyLast new)).2
      = insert ⟨init⟩ { last with name := new } := by
  simp [ImportTable.apply, rekeyLast]

/-- Moving the last import moves its uses, and no other's. -/
theorem uses_rekeyLast_iff (h : t.Distinct) {new : String} :
    (t.apply (.rekeyLast new)).2.Uses q n
      ↔ ∃ k, t.Uses k n ∧ t.followStep k (.rekeyLast new) = some q := by
  obtain ⟨entries⟩ := t
  rcases List.eq_nil_or_concat' entries with rfl | ⟨init, last, rfl⟩
  · simp [Uses, ImportTable.apply, rekeyLast]
  have lastName : (ImportTable.mk (init ++ [last])).names.getLast? = some last.name := by
    simp [names]
  rw [apply_rekeyLast_concat, uses_insert_last_iff h]
  simp only [followStep, lastName, Option.some.injEq]
  constructor
  · rintro (⟨rfl, used⟩ | ⟨used, ne⟩)
    · exact ⟨last.name, ⟨last, by simp, rfl, used⟩, if_pos rfl⟩
    · obtain ⟨i, hi, name, noted⟩ := used
      refine ⟨q, ⟨i, List.mem_append_left _ hi, name, noted⟩, ?_⟩
      rw [if_neg (h.ne_last ⟨i, hi, name, noted⟩), if_neg ne]
  · rintro ⟨k, ⟨i, hi, rfl, used⟩, kept⟩
    rcases List.mem_append.1 hi with hi | hi
    · rw [if_neg (h.ne_last ⟨i, hi, rfl, used⟩)] at kept
      split_ifs at kept with lost
      obtain rfl := Option.some.inj kept
      exact .inr ⟨⟨i, hi, rfl, used⟩, lost⟩
    · obtain rfl := List.mem_singleton.1 hi
      rw [if_pos rfl] at kept
      exact .inl ⟨Option.some.inj kept, used⟩

/-- A use is in the table after a step if it was there and its import has the name now, or if the
step notes it. -/
theorem uses_apply_iff (h : t.Distinct) :
    (t.apply step).2.Uses q n ↔ (∃ k, t.Uses k n ∧ t.followStep k step = some q)
      ∨ ∃ token, step = .resolve token ∧ ofToken token = ⟨n, some q⟩ ∧ q ∈ t.names := by
  cases step with
  | resolve token =>
    have used : (t.use (ofToken token)).Uses q n
        ↔ t.Uses q n ∨ (ofToken token = ⟨n, some q⟩ ∧ q ∈ t.names) := uses_use_iff
    simp only [followStep, Option.some.injEq, exists_eq_right]
    refine used.trans (or_congr_right ⟨fun h => ⟨token, rfl, h⟩, ?_⟩)
    rintro ⟨_, e, h⟩
    cases e
    exact h
  | register path =>
    rw [or_iff_left fun ⟨_, e, _⟩ => nomatch e]
    refine (uses_register_iff h).trans ?_
    simp only [followStep]
    constructor
    · rintro ⟨used, ne⟩
      exact ⟨q, used, if_neg ne⟩
    · rintro ⟨k, used, kept⟩
      split_ifs at kept with lost
      obtain rfl := Option.some.inj kept
      exact ⟨used, lost⟩
  | rekeyLast new =>
    rw [or_iff_left fun ⟨_, e, _⟩ => nomatch e]
    exact uses_rekeyLast_iff h

/-- **A type is in use at the end just if it was in use at the start, or came into use on the way,
in the import that has the name at the end.** -/
theorem uses_run_iff (h : t.Distinct) (steps : List ImportStep) :
    (t.run steps).Uses q n ↔ (∃ k, t.Uses k n ∧ t.follow k steps = some q)
      ∨ ∃ before token after k, steps = before ++ .resolve token :: after
        ∧ ofToken token = ⟨n, some k⟩ ∧ k ∈ (t.run before).names
        ∧ (t.run before).follow k (.resolve token :: after) = some q := by
  induction steps generalizing t with
  | nil =>
    have split : ∀ before token after, ([] : List ImportStep) ≠ before ++ .resolve token :: after :=
      fun before token after e => by simp at e
    constructor
    · exact fun used => .inl ⟨q, used, rfl⟩
    · rintro (⟨k, used, same⟩ | ⟨before, token, after, k, e, -⟩)
      · obtain rfl := Option.some.inj same
        exact used
      · exact absurd e (split before token after)
  | cons step steps ih =>
    have unrolled : t.run (step :: steps) = (t.apply step).2.run steps := rfl
    rw [unrolled, ih (h.apply step)]
    constructor
    · rintro (⟨k, used, followed⟩ | ⟨before, token, after, k, rfl, ref, named, followed⟩)
      · rcases (uses_apply_iff h).1 used with ⟨j, used, stepped⟩ | ⟨token, rfl, ref, named⟩
        · exact .inl ⟨j, used, by rw [follow, stepped]; exact followed⟩
        · exact .inr ⟨[], token, steps, k, rfl, ref, named, followed⟩
      · exact .inr ⟨step :: before, token, after, k, rfl, ref, named, followed⟩
    · rintro (⟨k, used, followed⟩ | ⟨before, token, after, k, split, ref, named, followed⟩)
      · obtain ⟨j, stepped, followed⟩ := Option.bind_eq_some_iff.1 followed
        exact .inl ⟨j, (uses_apply_iff h).2 (.inl ⟨k, used, stepped⟩), followed⟩
      · cases before with
        | nil =>
          obtain ⟨rfl, rfl⟩ := List.cons.inj split
          exact .inl ⟨k, (uses_apply_iff h).2 (.inr ⟨token, rfl, ref, named⟩), followed⟩
        | cons first before =>
          obtain ⟨rfl, rfl⟩ := List.cons.inj split
          exact .inr ⟨before, token, after, k, rfl, ref, named, followed⟩

end Steps

/-! ## Histories from the empty table -/

/-- **Some step of the history resolves a reference to the type under the name that the import of
this name has then.** -/
def UsedAs (steps : List ImportStep) (name localName : String) : Prop :=
  ∃ before token after k, steps = before ++ .resolve token :: after
    ∧ ofToken token = ⟨localName, some k⟩ ∧ k ∈ (empty.run before).names
    ∧ (empty.run before).follow k (.resolve token :: after) = some name

variable {q n : String}

theorem uses_run_empty_iff (steps : List ImportStep) :
    (empty.run steps).Uses q n ↔ UsedAs steps q n := by
  have fresh : ¬ ∃ k, empty.Uses k n ∧ empty.follow k steps = some q := fun ⟨_, ⟨_, hi, _⟩, _⟩ =>
    absurd hi List.not_mem_nil
  exact (uses_run_iff distinct_empty steps).trans (or_iff_right fresh)

/-- The step resolves a reference. -/
def isResolve : ImportStep → Bool
  | .resolve _ => true
  | _ => false

theorem names_run_of_resolves (t : ImportTable) {steps : List ImportStep}
    (h : ∀ s ∈ steps, isResolve s = true) : (t.run steps).names = t.names := by
  induction steps generalizing t with
  | nil => rfl
  | cons step steps ih =>
    obtain ⟨first, others⟩ := List.forall_mem_cons.1 h
    cases step with
    | resolve token => exact (ih (t.use (ofToken token)) others).trans (names_use t _)
    | register path | rekeyLast new => exact absurd first Bool.false_ne_true

theorem follow_of_resolves (t : ImportTable) {steps : List ImportStep} (k : String)
    (h : ∀ s ∈ steps, isResolve s = true) : t.follow k steps = some k := by
  induction steps generalizing t with
  | nil => rfl
  | cons step steps ih =>
    obtain ⟨first, others⟩ := List.forall_mem_cons.1 h
    cases step with
    | resolve token => exact ih (t.use (ofToken token)) others
    | register path | rekeyLast new => exact absurd first Bool.false_ne_true

/-- **If all references are resolved after the last registration and move, each is noted where its
qualifier says.** -/
theorem usedAs_of_resolves_last {front back : List ImportStep} {token : String}
    (h : ∀ s ∈ back, isResolve s = true) (resolved : .resolve token ∈ back)
    (ref : ofToken token = ⟨n, some q⟩) (named : q ∈ (empty.run (front ++ back)).names) :
    UsedAs (front ++ back) q n := by
  obtain ⟨before, after, rfl⟩ := List.append_of_mem resolved
  have befores : ∀ s ∈ before, isResolve s = true := fun s hs => h s (List.mem_append_left _ hs)
  have afters : ∀ s ∈ ImportStep.resolve token :: after, isResolve s = true := fun s hs =>
    h s (List.mem_append_right _ hs)
  refine ⟨front ++ before, token, after, q, by rw [List.append_assoc], ref, ?_,
    follow_of_resolves _ q afters⟩
  rw [run_append, names_run_of_resolves _ befores]
  rwa [run_append, names_run_of_resolves _ h] at named

end ProtoSchema.ImportTable
