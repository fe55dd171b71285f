import Mathlib.Data.List.Infix
import ProtoSchema.Document.Reader
import ProtoSchema.Symbol.Table

/-!
# Proofs/Symbols/FlatNames — when two paths have one flat name

A flat name joins the names of a path by separators, and a name may hold underscores of its own.
So different paths may have one flat name.  They do just if they *overlap*: they part at two names
of which one goes on by an underscore where the other ends (`flatten_eq_iff`).  Names that are
*separable* hold no separator and do not start with an underscore; paths of such names never overlap
(`flatten_injOn_separable`).
-/

namespace ProtoSchema

variable {m n : String} {p q : List String}

/-! ## Flat names as characters -/

/-- The names of a path, each behind a separator. -/
def trail (path : List String) : List Char :=
  path.flatMap fun n => flatSeparator.toList ++ n.toList

theorem trail_cons (n : String) (p : List String) :
    trail (n :: p) = '_' :: '_' :: (n.toList ++ trail p) := rfl

theorem trail_append (p q : List String) : trail (p ++ q) = trail p ++ trail q :=
  List.flatMap_append

/-- The flat name of a path is its first name and the others behind it. -/
theorem toList_flatten_cons (n : String) (p : List String) :
    (flatten (n :: p)).toList = n.toList ++ trail p := by
  rw [flatten, String.toList_intercalate]
  induction p generalizing n with
  | nil => simp [trail]
  | cons m p ih =>
    rw [List.map_cons, List.map_cons, List.intercalate_cons_cons, ← List.map_cons, ih, trail_cons,
      List.append_assoc]
    rfl

theorem trail_of_ne_nil (h : p ≠ []) : trail p = '_' :: '_' :: (flatten p).toList := by
  obtain ⟨n, p, rfl⟩ := List.exists_cons_of_ne_nil h
  rw [trail_cons, toList_flatten_cons]

/-- The flat name of a nested path goes on behind a separator. -/
theorem flatten_cons (hp : p ≠ []) (n : String) :
    flatten (n :: p) = n ++ flatSeparator ++ flatten p := by
  refine String.toList_injective ?_
  rw [toList_flatten_cons, trail_of_ne_nil hp, String.toList_append, String.toList_append,
    List.append_assoc]
  rfl

theorem flatten_eq_iff_trail_eq (hp : p ≠ []) (hq : q ≠ []) :
    flatten p = flatten q ↔ trail p = trail q := by
  rw [trail_of_ne_nil hp, trail_of_ne_nil hq, List.cons_inj_right, List.cons_inj_right,
    String.toList_inj]

/-! ## Overlapping paths -/

/-- **The paths part at two names, and the second name goes on by an underscore where the first
ends**: by a whole separator, or by one underscore where the first path goes on with another.  What
follows reads the same on both paths. -/
def Overlaps (p q : List String) : Prop :=
  ∃ common m n p' q', p = common ++ m :: p' ∧ q = common ++ n :: q' ∧ p' ≠ []
    ∧ ((∃ n', n = m ++ flatSeparator ++ n' ∧ flatten p' = flatten (n' :: q'))
      ∨ (n = m ++ "_" ∧ q' ≠ [] ∧ flatten p' = "_" ++ flatten q'))

theorem Overlaps.cons (h : Overlaps p q) (n : String) : Overlaps (n :: p) (n :: q) := by
  obtain ⟨common, m, m', p', q', rfl, rfl, overlap⟩ := h
  exact ⟨n :: common, m, m', p', q', rfl, rfl, overlap⟩

/-- Overlapping paths are different: of the names they part at, one is longer. -/
theorem Overlaps.ne (h : Overlaps p q) : p ≠ q := by
  obtain ⟨common, m, n, p', q', rfl, rfl, -, part⟩ := h
  have longer : m.length < n.length := by
    rcases part with ⟨n', rfl, -⟩ | ⟨rfl, -⟩
    · have two : flatSeparator.length = 2 := by decide
      rw [String.length_append, String.length_append]
      omega
    · have one : "_".length = 1 := by decide
      rw [String.length_append]
      omega
  intro same
  obtain ⟨rfl, -⟩ := List.cons.inj (List.append_cancel_left same)
  exact Nat.lt_irrefl _ longer

/-- Overlapping paths have one trail. -/
theorem Overlaps.trail_eq (h : Overlaps p q) : trail p = trail q := by
  obtain ⟨common, m, n, p', q', rfl, rfl, ne, ⟨n', rfl, same⟩ | ⟨rfl, ne', same⟩⟩ := h
  · have same := String.toList_inj.2 same
    rw [toList_flatten_cons] at same
    simp [trail_append, trail_cons, trail_of_ne_nil ne, same, flatSeparator]
  · simp [trail_append, trail_cons, trail_of_ne_nil ne, trail_of_ne_nil ne', same]

/-- A path that is ahead of another by more of a name overlaps it. -/
theorem overlaps_of_ahead {r : List Char} (more : r ≠ []) (name : n.toList = m.toList ++ r)
    (same : trail p = r ++ trail q) : Overlaps (m :: p) (n :: q) := by
  have ne : p ≠ [] := by
    rintro rfl
    exact more (List.append_eq_nil_iff.1 same.symm).1
  refine ⟨[], m, n, p, q, rfl, rfl, ne, ?_⟩
  rw [trail_of_ne_nil ne] at same
  -- The separator behind `m` is the start of `r`, which may end within it.
  match r, more with
  | [c], _ =>
    obtain ⟨rfl, rest⟩ := List.cons.inj same
    have ne' : q ≠ [] := by
      rintro rfl
      exact List.cons_ne_nil _ _ rest
    have rest : '_' :: (flatten p).toList = trail q := rest
    rw [trail_of_ne_nil ne'] at rest
    refine .inr ⟨String.toList_injective ?_, ne', String.toList_injective ?_⟩
    · rw [name, String.toList_append]
      rfl
    · rw [(List.cons.inj rest).2, String.toList_append]
      rfl
  | c :: c' :: r, _ =>
    rw [List.cons_append, List.cons_append, List.cons.injEq, List.cons.injEq] at same
    obtain ⟨rfl, rfl, rest⟩ := same
    refine .inl ⟨String.ofList r, String.toList_injective ?_, String.toList_injective ?_⟩
    · simp [name, flatSeparator]
    · rw [toList_flatten_cons, String.toList_ofList, rest]

/-- **Paths of one trail are one path, or one of them overlaps the other.** -/
theorem eq_or_overlaps_of_trail_eq :
    ∀ {p q : List String}, trail p = trail q → p = q ∨ Overlaps p q ∨ Overlaps q p
  | [], [], _ => .inl rfl
  | m :: p, n :: q, same => by
      rw [trail_cons, trail_cons, List.cons_inj_right, List.cons_inj_right] at same
      by_cases name : m = n
      · subst name
        rcases eq_or_overlaps_of_trail_eq (List.append_cancel_left same) with rfl | first | second
        · exact .inl rfl
        · exact .inr (.inl (first.cons m))
        · exact .inr (.inr (second.cons m))
      · have differ : m.toList ≠ n.toList := fun e => name (String.toList_injective e)
        rcases List.append_eq_append_iff.1 same with ⟨r, goesOn, rest⟩ | ⟨r, goesOn, rest⟩
        · have more : r ≠ [] := fun e => differ (by rw [goesOn, e, List.append_nil])
          exact .inr (.inl (overlaps_of_ahead more goesOn rest))
        · have more : r ≠ [] := fun e => differ (by rw [goesOn, e, List.append_nil])
          exact .inr (.inr (overlaps_of_ahead more goesOn rest))

/-- **Paths have one flat name just if they are one path or overlap.** -/
theorem flatten_eq_iff (hp : p ≠ []) (hq : q ≠ []) :
    flatten p = flatten q ↔ p = q ∨ Overlaps p q ∨ Overlaps q p := by
  rw [flatten_eq_iff_trail_eq hp hq]
  refine ⟨eq_or_overlaps_of_trail_eq, ?_⟩
  rintro (rfl | overlap | overlap)
  · rfl
  · exact overlap.trail_eq
  · exact overlap.trail_eq.symm

/-! ## Separable names -/

/-- **A name that no separator and no other name can run into**: it is not empty, holds no separator
and does not start with an underscore. -/
def Separable (name : String) : Prop :=
  name ≠ "" ∧ ¬ flatSeparator.toList <:+: name.toList ∧ name.toList.head? ≠ some '_'

instance : DecidablePred Separable := fun _ => inferInstanceAs (Decidable (_ ∧ _ ∧ _))

theorem not_overlaps_of_separable (hp : ∀ n ∈ p, Separable n) (hq : ∀ n ∈ q, Separable n) :
    ¬ Overlaps p q := by
  rintro ⟨common, m, n, p', q', rfl, rfl, follows, ⟨n', rfl, -⟩ | ⟨-, -, same⟩⟩
  · refine (hq (m ++ flatSeparator ++ n') (by simp)).2.1 ⟨m.toList, n'.toList, ?_⟩
    rw [String.toList_append, String.toList_append]
  · obtain ⟨x, p', rfl⟩ := List.exists_cons_of_ne_nil follows
    obtain ⟨ne, -, head⟩ := hp x (by simp)
    have same := String.toList_inj.2 same
    rw [toList_flatten_cons, String.toList_append] at same
    have first : x.toList ≠ [] := fun e => ne (String.toList_eq_nil_iff.1 e)
    obtain ⟨c, cs, chars⟩ := List.exists_cons_of_ne_nil first
    rw [chars] at same head
    exact head (congrArg some (List.cons.inj same).1)

/-- **Different paths of separable names have different flat names.** -/
theorem flatten_injOn_separable (hp : ∀ n ∈ p, Separable n) (hq : ∀ n ∈ q, Separable n)
    (ne : p ≠ []) (ne' : q ≠ []) (same : flatten p = flatten q) : p = q := by
  rcases (flatten_eq_iff ne ne').1 same with same | overlap | overlap
  · exact same
  · exact absurd overlap (not_overlaps_of_separable hp hq)
  · exact absurd overlap (not_overlaps_of_separable hq hp)

/-! ## Declarations of a document -/

mutual

/-- What holds of the names of all declarations holds of every name in their paths: the messages
around a declaration are declared as well. -/
theorem Entry.forall_mem_path {P : String → Prop} {parent : List String}
    (outer : ∀ n ∈ parent, P n) :
    ∀ {e : Entry}, (∀ t ∈ e.declared parent, P (t.path.getLastD "")) →
      ∀ t ∈ e.declared parent, t.path ≠ [] ∧ ∀ n ∈ t.path, P n
  | .field _, _, t, ht | .setting _, _, t, ht => absurd ht List.not_mem_nil
  | .enum d, names, t, ht => by
      obtain rfl := List.mem_singleton.1 ht
      have own := names _ List.mem_cons_self
      exact ⟨by simp, List.forall_mem_append.2 ⟨outer, by simpa using own⟩⟩
  | .message name body, names, t, ht => by
      obtain ⟨own, inner⟩ := List.forall_mem_cons.1 names
      have path : ∀ n ∈ parent ++ [name], P n :=
        List.forall_mem_append.2 ⟨outer, by simpa using own⟩
      rcases List.mem_cons.1 ht with rfl | ht
      · exact ⟨by simp, path⟩
      · exact forall_mem_path_of_declaredIn path inner t ht

theorem forall_mem_path_of_declaredIn {P : String → Prop} {parent : List String}
    (outer : ∀ n ∈ parent, P n) :
    ∀ {es : List Entry}, (∀ t ∈ declaredIn parent es, P (t.path.getLastD "")) →
      ∀ t ∈ declaredIn parent es, t.path ≠ [] ∧ ∀ n ∈ t.path, P n
  | [], _, t, ht => absurd ht List.not_mem_nil
  | e :: es, names, t, ht => by
      obtain ⟨first, others⟩ := List.forall_mem_append.1 names
      rcases List.mem_append.1 ht with ht | ht
      · exact Entry.forall_mem_path outer first t ht
      · exact forall_mem_path_of_declaredIn outer others t ht

end

namespace Document

variable {d : Document} {s t : Symbol}

theorem exists_declared_of_mem_symbols (h : s ∈ d.symbols) :
    ∃ id decl, d.declared[id]? = some decl ∧ s = Symbol.ofDeclared id decl := by
  obtain ⟨⟨decl, id⟩, mem, rfl⟩ := List.mem_map.1 h
  exact ⟨id, decl, List.mem_zipIdx_iff_getElem?.1 mem, rfl⟩

theorem ofDeclared_mem_symbols {id : Nat} {decl : Declared} (h : d.declared[id]? = some decl) :
    Symbol.ofDeclared id decl ∈ d.symbols :=
  List.mem_map.2 ⟨(decl, id), List.mem_zipIdx_iff_getElem?.2 h, rfl⟩

theorem flatName_of_mem_symbols (h : s ∈ d.symbols) : s.flatName = flatten s.path := by
  obtain ⟨id, decl, -, rfl⟩ := exists_declared_of_mem_symbols h
  rfl

/-- What holds of the short names of all symbols holds of every name in their paths. -/
theorem forall_mem_path_of_shortNames {P : String → Prop}
    (names : ∀ s ∈ d.symbols, P s.shortName) (h : s ∈ d.symbols) :
    s.path ≠ [] ∧ ∀ n ∈ s.path, P n := by
  obtain ⟨id, decl, declared, rfl⟩ := exists_declared_of_mem_symbols h
  refine forall_mem_path_of_declaredIn (by simp) (fun t ht => ?_) decl
    (List.mem_of_getElem? declared)
  obtain ⟨i, hi⟩ := List.getElem?_of_mem ht
  exact names _ (ofDeclared_mem_symbols hi)

theorem path_ne_nil (h : s ∈ d.symbols) : s.path ≠ [] :=
  (forall_mem_path_of_shortNames (P := fun _ => True) (fun _ _ => trivial) h).1

/-- **The declarations of a document have flat names as different as their paths just if none
overlap**, and none do whose names are separable. -/
theorem flatNames_ne_iff (d : Document) :
    ((∀ s ∈ d.symbolTable.symbols, ∀ t ∈ d.symbolTable.symbols,
        s.path ≠ t.path → s.flatName ≠ t.flatName)
      ↔ ∀ s ∈ d.symbolTable.symbols, ∀ t ∈ d.symbolTable.symbols, ¬ Overlaps s.path t.path)
    ∧ ((∀ s ∈ d.symbolTable.symbols, Separable s.shortName) →
        ∀ s ∈ d.symbolTable.symbols, ∀ t ∈ d.symbolTable.symbols, ¬ Overlaps s.path t.path) := by
  have same : ∀ s ∈ d.symbols, ∀ t ∈ d.symbols, s.flatName = t.flatName
      ↔ s.path = t.path ∨ Overlaps s.path t.path ∨ Overlaps t.path s.path := fun s hs t ht => by
    rw [flatName_of_mem_symbols hs, flatName_of_mem_symbols ht]
    exact flatten_eq_iff (path_ne_nil hs) (path_ne_nil ht)
  refine ⟨⟨fun distinct s hs t ht overlap => ?_, fun apart s hs t ht ne flat => ?_⟩,
    fun names s hs t ht => ?_⟩
  · have flat := (same s hs t ht).2 (.inr (.inl overlap))
    exact distinct s hs t ht overlap.ne flat
  · rcases (same s hs t ht).1 flat with path | overlap | overlap
    · exact ne path
    · exact apart s hs t ht overlap
    · exact apart t ht s hs overlap
  · exact not_overlaps_of_separable (forall_mem_path_of_shortNames names hs).2
      (forall_mem_path_of_shortNames names ht).2

/-- A document with a message whose name holds a separator, and one nested in another. -/
def separatorInName : Document where
  version := ""
  package := ""
  imports := []
  entries := [.message "A__B" [], .message "A" [.message "B" []]]
  services := []

/-- **Two messages of one file may have one flat name.** -/
theorem flatName_eq_of_separator_in_name :
    ofText "message A__B \x7b \x7d message A \x7b message B \x7b \x7d \x7d" = .ok separatorInName
      ∧ ∃ s ∈ separatorInName.symbolTable.symbols, ∃ t ∈ separatorInName.symbolTable.symbols,
        s.path = ["A__B"] ∧ t.path = ["A", "B"] ∧ s.flatName = t.flatName := by
  refine ⟨by decide +kernel, ⟨0, ["A__B"], "A__B", .message⟩, ?_, ⟨2, ["A", "B"], "A__B", .message⟩,
    ?_, rfl, rfl, rfl⟩ <;> decide +kernel

end Document

end ProtoSchema
