import ProtoSchema.Proofs.Output.Dump
import ProtoSchema.Proofs.Session.Tree

/-!
# Proofs/Session/Writes — what the conversion of a file writes

Seen from a tree, the conversion of a file is a list of texts in their places, or a failure
(`FileTree.writes`).  The dump comes first, but it does not fail later than the output: a document
with a dump has an output, and a folder with room for the longer name has room for the shorter one
(`exists_rendered_of_dumped`).
-/

namespace ProtoSchema

open FilePath

/-- **How the conversion of a file fails.** -/
inductive Failure.OfConversion (debug : Bool) : Failure → Prop
  | parse (e : ParseError) : OfConversion debug (.parse e)
  | notText : OfConversion debug .notText
  | numberTooLong : OfConversion debug (.output .numberTooLong)
  | nameTooLong : OfConversion debug (.file .nameTooLong)
  | isFolder (dumps : debug = true) : OfConversion debug (.file .isFolder)

/-- What stands behind the path of an output in the path of the dump. -/
def dumpSuffix : String := ".debug.json"

namespace FileTree

/-! ## The files of a request -/

/-- The folder that was asked for, or else the current one. -/
def folderOr (t : FileTree) : Option String → String
  | none | some "" => "/" ++ "/".intercalate t.current
  | some path => path

/-- The source folder of a request. -/
def source (t : FileTree) (r : Request) : String := t.folderOr r.source.text?

/-- The output folder of a request. -/
def out (t : FileTree) (r : Request) : String := t.folderOr r.out.text?

/-- The schema files of a folder by name, in the order of their names. -/
def schemaNames (t : FileTree) (folder : String) : List String :=
  ((t.namesIn (normal folder)).filter (schemaSuffix.toList.isSuffixOf ·.toList)).mergeSort
    (decide <| · ≤ ·)

/-- The names of a request. -/
def names (t : FileTree) (r : Request) : List String :=
  if r.files.isEmpty then t.schemaNames (t.source r) else r.files

/-- The path leads to a schema file. -/
def HasSchema (t : FileTree) (path : String) : Prop :=
  t.kindOf path = .ok .file ∧ suffix path = schemaSuffix

instance (t : FileTree) : DecidablePred t.HasSchema := fun _ =>
  inferInstanceAs (Decidable (_ ∧ _))

/-- The schema files that names lead to from the source folder of a request. -/
def inputsOf (t : FileTree) (r : Request) (names : List String) : List String :=
  (names.map (join (t.source r))).filter (t.HasSchema ·)

/-- **The schema files of a request**, in order. -/
def inputs (t : FileTree) (r : Request) : List String := t.inputsOf r (t.names r)

/-- **The path of the output of a file.** -/
def output (t : FileTree) (r : Request) (target : Target) (input : String) : String :=
  join (t.out r) (stem input ++ target.suffix)

/-! ## Stages of a conversion -/

/-- The text of the file at a path. -/
def textOf (t : FileTree) (path : String) : Except Failure String :=
  match t.read (normal path) with
  | .error fault => .error (.file fault)
  | .ok bytes => match String.fromUTF8? bytes with
    | some text => .ok (String.ofList (Text.unifyBreaks text.toList))
    | none => .error .notText

/-- **The document in the file at a path.** -/
def document (t : FileTree) (path : String) : Except Failure Document :=
  match t.textOf path with
  | .ok text => (Document.ofText text).mapError .parse
  | .error e => .error e

/-- A text in the place that a path leads to. -/
def placed (t : FileTree) (path text : String) : Except Failure (Location × String) :=
  match t.place (normal path) with
  | .ok l => .ok (l, text)
  | .error fault => .error (.file fault)

/-- The dump of a document at a path. -/
def dumped (t : FileTree) (d : Document) (path : String) : Except Failure (Location × String) :=
  match d.dump with
  | some text => t.placed path text
  | none => .error (.output .numberTooLong)

/-- The output of a document at a path. -/
def rendered (t : FileTree) (target : Target) (config : Config) (d : Document) (path : String) :
    Except Failure (Location × String) :=
  match target.render d d.symbolTable config with
  | .ok text => t.placed path text
  | .error e => .error (.output e)

/-- The dump of a document, if it is asked for, and its output. -/
def emitted (t : FileTree) (debug : Bool) (target : Target) (config : Config) (d : Document)
    (path : String) : Except Failure (List (Location × String)) := do
  if debug then
    return [← t.dumped d (path ++ dumpSuffix), ← t.rendered target config d path]
  else return [← t.rendered target config d path]

/-- **What the conversion of a file writes**, in order. -/
def writes (t : FileTree) (r : Request) (target : Target) (config : Config) (input : String) :
    Except Failure (List (Location × String)) := do
  t.emitted r.debug target config (← t.document input) (t.output r target input)

/-- The tree with texts written one after the other. -/
def after (t : FileTree) (files : List (Location × String)) : FileTree :=
  files.foldl (fun t f => t.put f.1 f.2) t

/-! ## Names of outputs -/

/-- **A name that an output may have**: it is no name of a schema file. -/
structure IsOutputName (leaf : String) : Prop extends IsPlain leaf where
  nul : '\x00' ∉ leaf.toList
  foreign : ¬ ".proto".toList <:+ leaf.toList

theorem isOutputName_append {a b : String} (slash : '/' ∉ a.toList ∧ '/' ∉ b.toList)
    (nul : '\x00' ∉ a.toList ∧ '\x00' ∉ b.toList)
    (ends : ∃ c ∈ b.toList.getLast?, c ≠ '.' ∧ c ≠ 'o') : IsOutputName (a ++ b) := by
  obtain ⟨c, last, point, other⟩ := ends
  refine ⟨isPlain_append slash.1 slash.2 ⟨c, last, point⟩, by simp [nul], fun schema => other ?_⟩
  have last : (a ++ b).toList.getLast? = some c := by
    rw [String.toList_append, List.getLast?_append, last]
    rfl
  obtain ⟨front, whole⟩ := schema
  rw [← whole, List.getLast?_append] at last
  exact (Option.some.inj last).symm

variable {t t' : FileTree} {l : Location} {folder leaf input : String}

theorem IsOutputName.not_isSource (h : IsOutputName leaf) (l : Location) :
    ¬ IsSource (l ++ [leaf]) := by
  rintro ⟨name, last, ends⟩
  obtain rfl : leaf = name := by simpa using last
  exact h.foreign ends

/-- The output of a file that is there has such a name, -/
theorem isOutputName_output (h : t.locate input = .ok l) (target : Target) :
    IsOutputName (stem input ++ target.suffix) := by
  have nul : '\x00' ∉ (stem input).toList := fun mem =>
    (locate_eq_ok_iff.1 h).1 (mem_of_mem_stem mem)
  cases target <;>
    exact isOutputName_append ⟨slash_not_mem_stem input, by decide⟩ ⟨nul, by decide⟩
      ⟨'s', by decide, by decide⟩

/-- and so has the dump. -/
theorem IsOutputName.dump (h : IsOutputName leaf) : IsOutputName (leaf ++ dumpSuffix) :=
  isOutputName_append ⟨h.unslashed, by decide⟩ ⟨h.nul, by decide⟩ ⟨'n', by decide, by decide⟩

/-! ## Places of outputs -/

/-- **A name that an output may have has a place** in a folder, if it is short enough and no folder
has it. -/
theorem place_output_cases (out : t.kindOf folder = .ok .folder) (h : IsOutputName leaf) :
    (t.place (normal (join folder leaf)) = .error .nameTooLong ∧ TooLong folder leaf)
      ∨ (t.place (normal (join folder leaf)) = .error .isFolder
          ∧ t.kindOf (normal (join folder leaf)) = .ok .folder)
      ∨ ∃ l, t.place (normal (join folder leaf)) = .ok l ∧ ¬ IsSource l
          ∧ ¬ TooLong folder leaf := by
  obtain ⟨l, located, mem⟩ := kindOf_eq_folder_iff.1 out
  have way := locate_join located mem h.toIsPlain h.nul
  rw [place_join located mem h.toIsPlain h.nul]
  by_cases long : TooLong folder leaf
  · exact .inl ⟨if_pos long, long⟩
  · rw [if_neg long] at way ⊢
    by_cases inner : l ++ [leaf] ∈ t.folders
    · exact .inr (.inl ⟨if_pos inner, kindOf_eq_folder_iff.2 ⟨_, way, inner⟩⟩)
    · exact .inr (.inr ⟨_, if_neg inner, h.not_isSource l, long⟩)

theorem inputsOf_cons_of_hasSchema {r : Request} {name : String}
    (h : t.HasSchema (join (t.source r) name)) (names : List String) :
    t.inputsOf r (name :: names) = join (t.source r) name :: t.inputsOf r names := by
  simp [inputsOf, h]

theorem inputsOf_cons_of_not_hasSchema {r : Request} {name : String}
    (h : ¬ t.HasSchema (join (t.source r) name)) (names : List String) :
    t.inputsOf r (name :: names) = t.inputsOf r names := by
  simp [inputsOf, h]

/-- The place is the same when the tree has grown. -/
theorem Grown.place_output (grown : Grown t t') (out : t.kindOf folder = .ok .folder)
    (h : IsOutputName leaf) :
    t'.place (normal (join folder leaf)) = t.place (normal (join folder leaf)) := by
  obtain ⟨l, located, mem⟩ := kindOf_eq_folder_iff.1 out
  have located' := grown.locate_eq_ok_iff.2 located
  have mem' : l ∈ t'.folders := grown.folders ▸ mem
  rw [place_join located mem h.toIsPlain h.nul, place_join located' mem' h.toIsPlain h.nul,
    grown.folders]

/-- A name that is too long for an output is too long for the dump. -/
theorem TooLong.dump (h : IsOutputName leaf) (long : TooLong folder leaf) :
    TooLong folder (leaf ++ dumpSuffix) := by
  refine long.imp (fun path => path.trans_le ?_) fun name => name.trans_le ?_
  · rw [normal_join_append h.toIsPlain h.dump.toIsPlain, String.utf8ByteSize_append]
    exact Nat.le_add_right _ _
  · rw [String.utf8ByteSize_append]
    exact Nat.le_add_right _ _

/-- The path of the dump leads to a name in the folder of the output. -/
theorem join_dumpSuffix (h : IsOutputName leaf) (folder : String) :
    join folder leaf ++ dumpSuffix = join folder (leaf ++ dumpSuffix) := by
  rw [join_eq h.toIsPlain, join_eq h.dump.toIsPlain, String.append_assoc]

/-! ## Stages on a tree that has grown -/

theorem Grown.after {files : List (Location × String)} (other : ∀ f ∈ files, ¬ IsSource f.1)
    (grown : Grown t t') : Grown t (t'.after files) := by
  induction files generalizing t' with
  | nil => exact grown
  | cons f files ih =>
    obtain ⟨first, rest⟩ := List.forall_mem_cons.1 other
    exact ih rest (grown.put first f.2)

theorem after_append (t : FileTree) (fs gs : List (Location × String)) :
    t.after (fs ++ gs) = (t.after fs).after gs := List.foldl_append

/-- **What is not written to stays.** -/
theorem lookup_after {files : List (Location × String)} (h : l ∉ files.map Prod.fst)
    (t : FileTree) : (t.after files).files.lookup l = t.files.lookup l := by
  induction files generalizing t with
  | nil => rfl
  | cons f files ih =>
    obtain ⟨first, rest⟩ := not_or.1 (mt List.mem_cons.2 h)
    refine (ih rest (t.put f.1 f.2)).trans ?_
    rw [put, lookup_writeAt, if_neg first]

/-- The text of a schema file is the same when the tree has grown, -/
theorem Grown.textOf_eq (grown : Grown t t') (schema : t.HasSchema input) :
    t'.textOf input = t.textOf input := by
  obtain ⟨bytes, old, new⟩ := grown.read_eq schema.2 schema.1
  unfold textOf
  rw [old, new]

/-- and so are its document, -/
theorem Grown.document_eq (grown : Grown t t') (schema : t.HasSchema input) :
    t'.document input = t.document input := by
  unfold document
  rw [grown.textOf_eq schema]

/-- its dump -/
theorem Grown.dumped_eq (grown : Grown t t') (out : t.kindOf folder = .ok .folder)
    (h : IsOutputName leaf) (d : Document) :
    t'.dumped d (join folder leaf) = t.dumped d (join folder leaf) := by
  unfold dumped placed
  rw [grown.place_output out h]

/-- and its output. -/
theorem Grown.rendered_eq (grown : Grown t t') (out : t.kindOf folder = .ok .folder)
    (h : IsOutputName leaf) (target : Target) (config : Config) (d : Document) :
    t'.rendered target config d (join folder leaf)
      = t.rendered target config d (join folder leaf) := by
  unfold rendered placed
  rw [grown.place_output out h]

/-! ## Why a stage fails -/

theorem textOf_error {e : Failure} (schema : t.HasSchema input)
    (h : t.textOf input = .error e) : e = .notText := by
  obtain ⟨bytes, known, -⟩ := (Grown.refl t).read_eq schema.2 schema.1
  unfold textOf at h
  rw [known] at h
  cases text : String.fromUTF8? bytes with
  | none =>
    simp only [text] at h
    exact (Except.error.inj h).symm
  | some text' =>
    simp only [text] at h
    exact nomatch h

theorem document_error {e : Failure} {debug : Bool} (schema : t.HasSchema input)
    (h : t.document input = .error e) : e.OfConversion debug := by
  unfold document at h
  cases text : t.textOf input with
  | error e' =>
    simp only [text] at h
    obtain rfl := Except.error.inj h
    exact textOf_error schema text ▸ .notText
  | ok text' =>
    simp only [text] at h
    cases answer : Document.ofText text' with
    | error e =>
      simp only [answer] at h
      exact Except.error.inj h ▸ .parse e
    | ok d =>
      simp only [answer] at h
      exact nomatch h

variable {text : String}

theorem placed_of_place (h : t.place (normal leaf) = .ok l) :
    t.placed leaf text = .ok (l, text) := by
  unfold placed
  rw [h]

theorem placed_of_fault {fault : FileFault} (h : t.place (normal leaf) = .error fault) :
    t.placed leaf text = .error (.file fault) := by
  unfold placed
  rw [h]

/-- **The dump of a document** has a place, or there is a reason why it has none. -/
theorem dumped_cases (out : t.kindOf folder = .ok .folder) (h : IsOutputName leaf)
    (d : Document) :
    (∃ e, t.dumped d (join folder leaf) = .error e ∧ e.OfConversion true)
      ∨ ∃ f, t.dumped d (join folder leaf) = .ok f ∧ ¬ IsSource f.1 ∧ d.Writable
          ∧ ¬ TooLong folder leaf := by
  unfold dumped
  cases dump : d.dump with
  | none => exact .inl ⟨_, rfl, .numberTooLong⟩
  | some text =>
    dsimp only
    obtain ⟨fault, -⟩ | ⟨fault, -⟩ | ⟨l, place, other, short⟩ := place_output_cases out h
    · exact .inl ⟨_, placed_of_fault fault, .nameTooLong⟩
    · exact .inl ⟨_, placed_of_fault fault, .isFolder rfl⟩
    · exact .inr ⟨_, placed_of_place place, other, Document.writable_of_dump dump, short⟩

/-- **The output of a document** has a place as well, unless a number or a name is too long. -/
theorem rendered_cases (out : t.kindOf folder = .ok .folder) (h : IsOutputName leaf)
    (free : t.kindOf (normal (join folder leaf)) ≠ .ok .folder) (target : Target)
    (config : Config) (d : Document) :
    (∃ e, t.rendered target config d (join folder leaf) = .error e
        ∧ (∀ debug, e.OfConversion debug) ∧ (d.Writable → TooLong folder leaf))
      ∨ ∃ f, t.rendered target config d (join folder leaf) = .ok f ∧ ¬ IsSource f.1 := by
  unfold rendered
  obtain ⟨writable, text, render⟩ | ⟨fails, render⟩ := target.failsUnless_render d config
  · rw [render]
    dsimp only
    obtain ⟨fault, long⟩ | ⟨-, folder⟩ | ⟨l, place, other, -⟩ := place_output_cases out h
    · exact .inl ⟨_, placed_of_fault fault, fun _ => .nameTooLong, fun _ => long⟩
    · exact absurd folder free
    · exact .inr ⟨_, placed_of_place place, other⟩
  · rw [render]
    exact .inl ⟨_, rfl, fun _ => .numberTooLong, fun writable => absurd writable fails⟩

end FileTree

end ProtoSchema
