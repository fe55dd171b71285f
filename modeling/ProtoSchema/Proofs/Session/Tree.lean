import ProtoSchema.FileTree
import ProtoSchema.Proofs.Session.Path

/-!
# Proofs/Session/Tree — what writing does to a tree

A path that leads somewhere leads there in its normal form (`locate_normal`), and a plain name in a
folder leads into it unless it is too long (`locate_join`).  Writing changes neither folders nor the
files at other locations, so a tree that has got files with other names is the same to whoever reads
schema files (`Grown.read`).
-/

namespace ProtoSchema.FileTree

open FilePath

variable {t t' : FileTree} {path : String} {l : Location}

/-! ## Following paths -/

theorem kindAt_eq_folder_iff : t.kindAt l = some .folder ↔ l ∈ t.folders := by
  unfold kindAt
  split_ifs with folder <;> simp [folder]

/-- Where a path starts. -/
def start (t : FileTree) (path : String) : Location :=
  if isAbsolute path then [] else t.current

/-- **One part of a way** goes on from a folder, and is not too long. -/
theorem follow_cons_eq_ok_iff {k : Location} {part : String} {parts : List String} :
    t.follow k (part :: parts) = .ok l ↔ k ∈ t.folders ∧ part.utf8ByteSize ≤ partLimit
      ∧ t.follow (step k part) parts = .ok l := by
  rw [follow, ← kindAt_eq_folder_iff]
  cases t.kindAt k with
  | none => simp
  | some kind =>
    cases kind with
    | file => simp
    | folder =>
      by_cases long : partLimit < part.utf8ByteSize
      · simp [long]
      · simp [long, Nat.not_lt.1 long]

theorem follow_append {ps qs : List String} : ∀ {k m : Location}, t.follow k ps = .ok m →
    t.follow k (ps ++ qs) = t.follow m qs := by
  induction ps with
  | nil =>
    rintro k m h
    rw [Except.ok.inj h, List.nil_append]
  | cons p ps ih =>
    intro k m h
    obtain ⟨folder, short, rest⟩ := follow_cons_eq_ok_iff.1 h
    rw [List.cons_append, follow, kindAt_eq_folder_iff.2 folder, ← ih rest]
    simp [Nat.not_lt.2 short]

theorem step_of_stays {k : Location} {part : String} (h : stays part = true) : step k part = k :=
  if_pos h

theorem utf8ByteSize_of_stays {part : String} (h : stays part = true) :
    part.utf8ByteSize ≤ partLimit := by
  simp only [stays, Bool.or_eq_true, decide_eq_true_eq] at h
  rcases h with rfl | rfl <;> decide

/-- Parts that stay lead from a folder to itself. -/
theorem follow_of_stays {parts : List String} (h : ∀ part ∈ parts, stays part = true)
    {k : Location} (folder : k ∈ t.folders) : t.follow k parts = .ok k := by
  induction parts with
  | nil => rfl
  | cons part parts ih =>
    obtain ⟨first, others⟩ := List.forall_mem_cons.1 h
    refine follow_cons_eq_ok_iff.2 ⟨folder, utf8ByteSize_of_stays first, ?_⟩
    rw [step_of_stays first]
    exact ih others

/-- Parts that stay may be left out of a way. -/
theorem follow_filter {parts : List String} : ∀ {k : Location}, t.follow k parts = .ok l →
    t.follow k (parts.filter (!stays ·)) = .ok l := by
  induction parts with
  | nil => exact id
  | cons part parts ih =>
    intro k h
    obtain ⟨folder, short, rest⟩ := follow_cons_eq_ok_iff.1 h
    by_cases stay : stays part = true
    · rw [step_of_stays stay] at rest
      rw [List.filter_cons_of_neg (by simp [stay])]
      exact ih rest
    · rw [List.filter_cons_of_pos (by simp [stay])]
      exact follow_cons_eq_ok_iff.2 ⟨folder, short, ih rest⟩

/-! ## Locating paths -/

theorem locate_eq_ok_iff : t.locate path = .ok l ↔ '\x00' ∉ path.toList ∧ path ≠ ""
    ∧ path.utf8ByteSize ≤ lengthLimit ∧ t.follow (t.start path) (parts path) = .ok l := by
  rw [locate, start]
  split_ifs with nul empty long <;> simp_all

/-- A way starts in a folder. -/
theorem start_mem_folders (h : t.locate path = .ok l) : t.start path ∈ t.folders := by
  obtain ⟨-, -, -, way⟩ := locate_eq_ok_iff.1 h
  obtain ⟨part, parts, split⟩ := List.exists_cons_of_ne_nil (parts_ne_nil path)
  rw [split] at way
  exact (follow_cons_eq_ok_iff.1 way).1

/-- The normal form of a path goes the way of its parts that lead somewhere. -/
theorem follow_normal (folder : t.start path ∈ t.folders) :
    t.follow (t.start (normal path)) (parts (normal path))
      = t.follow (t.start path) (kept path) := by
  obtain ⟨front, stay, split⟩ := exists_parts_normal path
  have same : t.start (normal path) = t.start path := by rw [start, start, isAbsolute_normal]
  rw [same, split, follow_append (follow_of_stays stay folder)]

theorem follow_kept (h : t.locate path = .ok l) : t.follow (t.start path) (kept path) = .ok l :=
  follow_filter (locate_eq_ok_iff.1 h).2.2.2

/-- **A path that leads somewhere leads there in its normal form.** -/
theorem locate_normal (h : t.locate path = .ok l) : t.locate (normal path) = .ok l := by
  obtain ⟨nul, ne, short, way⟩ := locate_eq_ok_iff.1 h
  refine locate_eq_ok_iff.2 ⟨fun mem => nul (mem_of_mem_normal mem (by decide)), ?_,
    (utf8ByteSize_normal_le ne).trans short, ?_⟩
  · exact normal_ne_empty path
  · rw [follow_normal (start_mem_folders h)]
    exact follow_kept h

theorem step_of_isPlain {leaf : String} (h : IsPlain leaf) (k : Location) :
    step k leaf = k ++ [leaf] := by
  rw [step, if_neg (by simp [h.leads]), if_neg h.inner]

/-- The name in a folder, or the path to it, is too long. -/
def TooLong (folder leaf : String) : Prop :=
  lengthLimit < (normal (join folder leaf)).utf8ByteSize ∨ partLimit < leaf.utf8ByteSize

instance (folder leaf : String) : Decidable (TooLong folder leaf) :=
  inferInstanceAs (Decidable (_ ∨ _))

/-- **A plain name in a folder leads into it**, unless it is too long. -/
theorem locate_join {folder leaf : String} (h : t.locate folder = .ok l) (mem : l ∈ t.folders)
    (plain : IsPlain leaf) (nul : '\x00' ∉ leaf.toList) :
    t.locate (normal (join folder leaf))
      = if TooLong folder leaf then .error .nameTooLong else .ok (l ++ [leaf]) := by
  obtain ⟨free, ne, -, -⟩ := locate_eq_ok_iff.1 h
  have free : '\x00' ∉ (normal (join folder leaf)).toList := fun mem =>
    (mem_of_mem_join plain (mem_of_mem_normal mem (by decide)) (by decide)).elim free nul
  have same : t.start (join folder leaf) = t.start folder := by
    rw [start, start, isAbsolute_join plain ne]
  have way : t.follow (t.start (normal (join folder leaf))) (parts (normal (join folder leaf)))
      = t.follow l [leaf] := by
    rw [follow_normal (same ▸ start_mem_folders h), same, kept_join plain,
      follow_append (follow_kept h)]
  have last : t.follow l [leaf]
      = if partLimit < leaf.utf8ByteSize then .error .nameTooLong else .ok (l ++ [leaf]) := by
    simp only [follow, kindAt_eq_folder_iff.2 mem, step_of_isPlain plain]
  rw [locate, if_neg (by simpa using free), if_neg (normal_ne_empty _), ← start, way, last]
  by_cases long : lengthLimit < (normal (join folder leaf)).utf8ByteSize
  · have far : TooLong folder leaf := .inl long
    rw [if_pos long, if_pos far]
  · simp only [TooLong, long, if_false, false_or]

/-! ## Writing -/

/-- **Where the contents of a path are written.** -/
def place (t : FileTree) (path : String) : Except FileFault Location := do
  let l ← t.locate path
  if t.kindAt l = some .folder then .error .isFolder else .ok l

/-- The tree with new contents at a location. -/
def put (t : FileTree) (l : Location) (contents : String) : FileTree :=
  { t with files := writeAt l contents.toUTF8 t.files }

/-- Writing puts the contents in their place. -/
theorem write_eq (t : FileTree) (path contents : String) :
    t.write path contents = (t.place path).map fun l => t.put l contents := by
  unfold write place
  cases t.locate path with
  | error e => rfl
  | ok l =>
    change (if l ∈ t.folders then _ else _)
      = Except.map _ (if t.kindAt l = some .folder then _ else _)
    simp only [kindAt_eq_folder_iff]
    split_ifs <;> rfl

/-- A plain name in a folder is a place unless it is too long or a folder. -/
theorem place_join {folder leaf : String} (h : t.locate folder = .ok l) (mem : l ∈ t.folders)
    (plain : IsPlain leaf) (nul : '\x00' ∉ leaf.toList) :
    t.place (normal (join folder leaf))
      = if TooLong folder leaf then .error .nameTooLong
        else if l ++ [leaf] ∈ t.folders then .error .isFolder else .ok (l ++ [leaf]) := by
  rw [place, locate_join h mem plain nul]
  split_ifs with long inner
  · rfl
  · exact if_pos (kindAt_eq_folder_iff.2 inner)
  · exact if_neg (mt kindAt_eq_folder_iff.1 inner)

theorem lookup_writeAt (l m : Location) (bytes : ByteArray) :
    ∀ fs : List (Location × ByteArray),
      (writeAt l bytes fs).lookup m = if m = l then some bytes else fs.lookup m
  | [] => by
      rw [writeAt, List.lookup_cons, List.lookup_nil]
      by_cases same : m = l <;> simp [same, beq_eq_false_iff_ne.2]
  | (k, old) :: fs => by
      have rest := lookup_writeAt l m bytes fs
      rw [writeAt]
      by_cases here : k = l
      · rw [if_pos here, here, List.lookup_cons, List.lookup_cons]
        by_cases same : m = l
        · simp [same]
        · simp [same, beq_eq_false_iff_ne.2 same]
      · rw [if_neg here, List.lookup_cons, List.lookup_cons, rest]
        by_cases first : m = k
        · simp [first, here]
        · rw [beq_eq_false_iff_ne.2 first]

/-! ## Trees with more files -/

/-- The location of a schema file. -/
def IsSource (l : Location) : Prop :=
  ∃ name, l.getLast? = some name ∧ ".proto".toList <:+ name.toList

/-- **A tree that has got files**, none of them a schema file. -/
structure Grown (t t' : FileTree) : Prop where
  folders : t'.folders = t.folders
  current : t'.current = t.current
  sources : ∀ l, IsSource l → t'.files.lookup l = t.files.lookup l

namespace Grown

theorem refl (t : FileTree) : Grown t t := ⟨rfl, rfl, fun _ _ => rfl⟩

theorem put (h : Grown t t') (other : ¬ IsSource l) (contents : String) :
    Grown t (t'.put l contents) := by
  refine ⟨h.folders, h.current, fun m source => ?_⟩
  have ne : m ≠ l := fun e => other (e ▸ source)
  rw [FileTree.put, lookup_writeAt, if_neg ne, h.sources m source]

theorem follow_eq_ok_iff (h : Grown t t') {parts : List String} : ∀ {k : Location},
    t'.follow k parts = .ok l ↔ t.follow k parts = .ok l := by
  induction parts with
  | nil => exact Iff.rfl
  | cons part parts ih =>
    intro k
    rw [follow_cons_eq_ok_iff, follow_cons_eq_ok_iff, h.folders, ih]

/-- The same paths lead somewhere, and to the same locations. -/
theorem locate_eq_ok_iff (h : Grown t t') : t'.locate path = .ok l ↔ t.locate path = .ok l := by
  have start : t'.start path = t.start path := by rw [FileTree.start, FileTree.start, h.current]
  rw [FileTree.locate_eq_ok_iff, FileTree.locate_eq_ok_iff, start, h.follow_eq_ok_iff]

end Grown

/-! ## Schema files -/

theorem kindOf_eq_file_iff : t.kindOf path = .ok .file
    ↔ ∃ l, t.locate path = .ok l ∧ l ∉ t.folders ∧ (t.files.lookup l).isSome := by
  rw [kindOf]
  cases t.locate path with
  | error e => simp
  | ok l =>
    simp only [Except.ok.injEq, exists_eq_left', kindAt]
    by_cases folder : l ∈ t.folders
    · simp [folder]
    · by_cases some : (t.files.lookup l).isSome <;> simp [folder, some]

theorem kindOf_eq_folder_iff : t.kindOf path = .ok .folder
    ↔ ∃ l, t.locate path = .ok l ∧ l ∈ t.folders := by
  rw [kindOf]
  cases t.locate path with
  | error e => simp
  | ok l =>
    simp only [Except.ok.injEq, exists_eq_left', kindAt]
    by_cases folder : l ∈ t.folders
    · simp [folder]
    · by_cases some : (t.files.lookup l).isSome <;> simp [folder, some]

theorem exists_follow_of_append {ps qs : List String} : ∀ {k : Location},
    t.follow k (ps ++ qs) = .ok l → ∃ m, t.follow k ps = .ok m ∧ t.follow m qs = .ok l := by
  induction ps with
  | nil => exact fun h => ⟨_, rfl, h⟩
  | cons p ps ih =>
    intro k h
    obtain ⟨folder, short, rest⟩ := follow_cons_eq_ok_iff.1 h
    obtain ⟨m, front, back⟩ := ih rest
    exact ⟨m, follow_cons_eq_ok_iff.2 ⟨folder, short, front⟩, back⟩

/-- **A file stands at a location with its name.** -/
theorem getLast?_of_locate (h : t.locate path = .ok l) (file : l ∉ t.folders)
    (inner : name path ≠ "..") : l.getLast? = some (name path) := by
  obtain ⟨-, -, -, way⟩ := locate_eq_ok_iff.1 h
  have split := List.dropLast_concat_getLast (parts_ne_nil path)
  generalize (parts path).dropLast = front, (parts path).getLast (parts_ne_nil path) = last at split
  rw [← split] at way
  obtain ⟨m, -, back⟩ := exists_follow_of_append way
  obtain ⟨folder, -, same⟩ := follow_cons_eq_ok_iff.1 back
  obtain rfl : step m last = l := Except.ok.inj same
  by_cases stay : stays last = true
  · rw [step_of_stays stay] at file
    exact absurd folder file
  · have named : name path = last := by
      rw [name, ← split, List.filter_append]
      simp [stay]
    rw [named] at inner ⊢
    rw [step, if_neg stay, if_neg inner, List.getLast?_concat]

/-- A path with the suffix of schema files leads to the location of one. -/
theorem isSource_of_locate (suffix : suffix path = ".proto") (h : t.locate path = .ok l)
    (file : l ∉ t.folders) : IsSource l := by
  have ends := suffix_isSuffix path
  rw [suffix] at ends
  refine ⟨_, getLast?_of_locate h file ?_, ends⟩
  intro up
  rw [up] at ends
  exact absurd ends.length_le (by decide)

/-- **Whether a schema file is there** is not changed by other files. -/
theorem Grown.kindOf_eq_file_iff (h : Grown t t') (suffix : suffix path = ".proto") :
    t'.kindOf path = .ok .file ↔ t.kindOf path = .ok .file := by
  rw [FileTree.kindOf_eq_file_iff, FileTree.kindOf_eq_file_iff]
  refine exists_congr fun l => ?_
  rw [h.locate_eq_ok_iff, h.folders]
  refine and_congr_right fun located => and_congr_right fun file => ?_
  rw [h.sources l (isSource_of_locate suffix located file)]

/-- **A schema file is read** from the tree as it was. -/
theorem Grown.read_eq (h : Grown t t') (suffix : suffix path = ".proto")
    (file : t.kindOf path = .ok .file) :
    ∃ bytes, t.read (normal path) = .ok bytes ∧ t'.read (normal path) = .ok bytes := by
  obtain ⟨l, located, file, some⟩ := FileTree.kindOf_eq_file_iff.1 file
  obtain ⟨bytes, found⟩ := Option.isSome_iff_exists.1 some
  have source := isSource_of_locate suffix located file
  have normal := locate_normal located
  refine ⟨bytes, ?_, ?_⟩
  · rw [read, normal]
    simp only [file, if_false, found]
  · rw [read, h.locate_eq_ok_iff.2 normal]
    simp only [h.folders, file, if_false, h.sources l source, found]

end ProtoSchema.FileTree
