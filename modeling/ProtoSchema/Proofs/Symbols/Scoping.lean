import ProtoSchema.Proofs.Symbols.FlatNames
import ProtoSchema.Proofs.Symbols.Lookup

/-!
# Proofs/Symbols/Scoping — a name means its innermost declaration

A reference without qualifier is looked up by the flat names that it may have, innermost first.
Where all names are separable these stand for paths, and the reference means the declaration of its
name in the innermost message around it that has one, else the one at the top of the file, else
nothing that the file declares (`scoped_of_separable`).
-/

namespace ProtoSchema

/-! ## The innermost candidate -/

/-- Of the depths below `m` the greatest is looked at first. -/
theorem find?_depths_eq_some_iff {fits : Nat → Bool} {m depth : Nat} :
    (List.range m).reverse.find? fits = some depth
      ↔ depth < m ∧ fits depth = true ∧ ∀ k, depth < k → k < m → fits k = false := by
  induction m with
  | zero => simp
  | succ m ih =>
    rw [List.range_succ, List.reverse_append, List.reverse_singleton, List.singleton_append,
      List.find?_cons]
    cases last : fits m with
    | true =>
      simp only [Option.some.injEq]
      constructor
      · rintro rfl
        exact ⟨Nat.lt_succ_self _, last, fun k lt lt' => absurd lt (by omega)⟩
      · rintro ⟨lt, -, none⟩
        by_contra ne
        exact absurd ((none m (by omega) (Nat.lt_succ_self m)).symm.trans last) Bool.false_ne_true
    | false =>
      rw [ih]
      constructor
      · rintro ⟨lt, fit, none⟩
        refine ⟨Nat.lt_succ_of_lt lt, fit, fun k lt lt' => ?_⟩
        rcases Nat.lt_succ_iff_lt_or_eq.1 lt' with lt' | rfl
        · exact none k lt lt'
        · exact last
      · rintro ⟨lt, fit, none⟩
        have ne : depth ≠ m := fun e => Bool.false_ne_true (last.symm.trans (e ▸ fit))
        exact ⟨by omega, fit, fun k lt lt' => none k lt (Nat.lt_succ_of_lt lt')⟩

/-- **The first candidate that is declared** belongs to the innermost scope that has one. -/
theorem find?_candidates_eq_some_iff {declared scope : List String} {n name : String} :
    (candidates scope n).find? (· ∈ declared) = some name
      ↔ ∃ depth ≤ scope.length, flatten (scope.take depth ++ [n]) = name ∧ name ∈ declared
        ∧ ∀ k, depth < k → k ≤ scope.length → flatten (scope.take k ++ [n]) ∉ declared := by
  rw [candidates, List.find?_map, Option.map_eq_some_iff]
  constructor
  · rintro ⟨depth, found, rfl⟩
    obtain ⟨lt, fit, none⟩ := find?_depths_eq_some_iff.1 found
    exact ⟨depth, Nat.le_of_lt_succ lt, rfl, by simpa using fit,
      fun k inner le => by simpa using none k inner (Nat.lt_succ_of_le le)⟩
  · rintro ⟨depth, le, rfl, fit, none⟩
    refine ⟨depth, find?_depths_eq_some_iff.2 ⟨Nat.lt_succ_of_le le, by simpa using fit, ?_⟩, rfl⟩
    exact fun k inner lt => by simpa using none k inner (Nat.le_of_lt_succ lt)

theorem find?_candidates_eq_none_iff {declared scope : List String} {n : String} :
    (candidates scope n).find? (· ∈ declared) = none
      ↔ ∀ depth ≤ scope.length, flatten (scope.take depth ++ [n]) ∉ declared := by
  simp only [candidates, List.find?_eq_none, List.forall_mem_map, List.mem_reverse,
    List.mem_range, Nat.lt_succ_iff, decide_eq_true_eq]

/-! ## What a name means -/

/-- **The reference is a separable name without qualifier, and no scalar type.** -/
structure TypeRef.IsSearched (r : TypeRef) : Prop where
  unqualified : r.qualifier = none
  separable : Separable r.localName
  not_scalar : Scalar.ofName? r.localName = none

theorem Names.resolve_of_isSearched {names : Names} {scope : List String} {r : TypeRef}
    (h : r.IsSearched) :
    names.resolve scope r = ((candidates scope r.localName).find? (· ∈ names.declared)).elim
      (.unresolved r.localName) .declared := by
  rw [resolve, h.unqualified]
  simp only [h.not_scalar]
  cases (candidates scope r.localName).find? (· ∈ names.declared) <;> rfl

namespace Document

variable {d : Document} {path scope : List String}

/-- A declaration of the document has this path. -/
def DeclaresAt (d : Document) (path : List String) : Prop :=
  ∃ s ∈ d.symbolTable.symbols, s.path = path

/-- **What a name stands for inside a scope**: a declaration of the file just if one has the name in
a scope around, and then the innermost of these and no other. -/
structure Scoped (d : Document) (scope : List String) (n : String) (meaning : Resolved) :
    Prop where
  declared_iff : (∃ name, meaning = .declared name)
    ↔ ∃ depth ≤ scope.length, d.DeclaresAt (scope.take depth ++ [n])
  innermost : ∀ depth ≤ scope.length, d.DeclaresAt (scope.take depth ++ [n]) →
    (∀ k, depth < k → k ≤ scope.length → ¬ d.DeclaresAt (scope.take k ++ [n])) →
    ∀ s ∈ d.symbolTable.symbols,
      meaning = .declared s.flatName ↔ s.path = scope.take depth ++ [n]
  unresolved : (¬ ∃ depth ≤ scope.length, d.DeclaresAt (scope.take depth ++ [n])) →
    meaning = .unresolved n

/-- Flat names stand for paths where all names are separable. -/
theorem flatName_eq_flatten_iff (names : ∀ s ∈ d.symbols, Separable s.shortName)
    (separable : ∀ n ∈ path, Separable n) (ne : path ≠ []) {s : Symbol} (hs : s ∈ d.symbols) :
    s.flatName = flatten path ↔ s.path = path := by
  obtain ⟨ne', separable'⟩ := forall_mem_path_of_shortNames names hs
  rw [flatName_of_mem_symbols hs]
  exact ⟨flatten_injOn_separable separable' separable ne' ne, congrArg flatten⟩

theorem flatten_mem_declared_iff (names : ∀ s ∈ d.symbols, Separable s.shortName)
    (separable : ∀ n ∈ path, Separable n) (ne : path ≠ []) :
    flatten path ∈ d.names.declared ↔ d.DeclaresAt path := by
  rw [Document.names, List.mem_map]
  exact exists_congr fun s => and_congr_right fun hs =>
    flatName_eq_flatten_iff names separable ne hs

/-- **Where all names are separable, a name means its innermost declaration.** -/
theorem scoped_resolve (names : ∀ s ∈ d.symbols, Separable s.shortName)
    (separable : ∀ n ∈ scope, Separable n) {r : TypeRef} (hr : r.IsSearched) :
    d.Scoped scope r.localName (d.names.resolve scope r) := by
  have path : ∀ k, ∀ n ∈ scope.take k ++ [r.localName], Separable n := fun k =>
    List.forall_mem_append.2 ⟨fun n hn => separable n (List.mem_of_mem_take hn),
      List.forall_mem_singleton.2 hr.separable⟩
  have ne : ∀ k, scope.take k ++ [r.localName] ≠ [] := fun k => by simp
  have declares : ∀ k, flatten (scope.take k ++ [r.localName]) ∈ d.names.declared
      ↔ d.DeclaresAt (scope.take k ++ [r.localName]) := fun k =>
    flatten_mem_declared_iff names (path k) (ne k)
  rw [Names.resolve_of_isSearched hr]
  cases found : (candidates scope r.localName).find? (· ∈ d.names.declared) with
  | none =>
    have nowhere : ∀ k ≤ scope.length, ¬ d.DeclaresAt (scope.take k ++ [r.localName]) :=
      fun k le => (declares k).not.1 (find?_candidates_eq_none_iff.1 found k le)
    refine ⟨⟨fun ⟨_, e⟩ => (nomatch e), fun ⟨k, le, here⟩ => absurd here (nowhere k le)⟩,
      fun k le here => absurd here (nowhere k le), fun _ => rfl⟩
  | some name =>
    obtain ⟨depth, le, rfl, fit, none⟩ := find?_candidates_eq_some_iff.1 found
    have here := (declares depth).1 fit
    refine ⟨⟨fun _ => ⟨depth, le, here⟩, fun _ => ⟨_, rfl⟩⟩, fun k le' here' inner s hs => ?_,
      fun nowhere => absurd ⟨depth, le, here⟩ nowhere⟩
    -- Both depths are the greatest at which the name is declared.
    have same : depth = k := by
      rcases Nat.lt_trichotomy depth k with lt | same | lt
      · exact absurd ((declares k).2 here') (none k lt le')
      · exact same
      · exact absurd here (inner depth lt le)
    subst same
    rw [← flatName_eq_flatten_iff names (path depth) (ne depth) hs, eq_comm]
    exact Resolved.declared.injEq _ _ ▸ Iff.rfl

/-- **In a document of separable names, a field's type means the innermost declaration of its name
around the field's message, and a method's types mean declarations at the top.** -/
theorem scoped_of_separable (d : Document)
    (names : ∀ s ∈ d.symbolTable.symbols, Separable s.shortName) :
    (∀ id place decl f, d.declared[id]? = some decl →
      decl.declaration.body[place]? = some (.field f) → f.type.IsSearched →
      ∃ meaning, d.symbolTable.field? id place = some meaning
        ∧ d.Scoped decl.path f.type.localName meaning)
    ∧ ∀ id place s m, d.services[id]? = some s → s.body[place]? = some (.rpc m) →
      ∃ types, d.symbolTable.rpc? id place = some types
        ∧ (m.argument.IsSearched → d.Scoped [] m.argument.localName types.argument)
        ∧ (m.result.IsSearched → d.Scoped [] m.result.localName types.result) := by
  constructor
  · intro id place decl f declared placed searched
    have path := (forall_mem_path_of_shortNames names (ofDeclared_mem_symbols declared)).2
    refine ⟨d.names.resolve decl.path f.type, ?_, scoped_resolve names path searched⟩
    rw [field?_symbolTable, declared, Option.bind_some, placed]
    rfl
  · intro id place s m served placed
    refine ⟨⟨d.names.resolve [] m.argument, d.names.resolve [] m.result⟩, ?_,
      scoped_resolve names (by simp), scoped_resolve names (by simp)⟩
    rw [rpc?_symbolTable, served, Option.bind_some, placed]
    rfl

/-- A document in which a field's type is declared beside the field's message and at the top. -/
def shadowed : Document where
  version := ""
  package := ""
  imports := []
  entries := [.message "Leaf" [], .message "Outer" [.message "Leaf" [],
    .message "Inner" [.field ⟨"leaf", ⟨"Leaf", none⟩, 1, 0, false, false⟩]]]
  services := []

/-- The declaration beside the message shadows the one at the top. -/
theorem field?_shadowed :
    (∀ s ∈ shadowed.symbolTable.symbols, Separable s.shortName)
      ∧ shadowed.symbolTable.field? 3 0 = some (.declared "Outer__Leaf") := by
  have names : ∀ s ∈ shadowed.symbolTable.symbols, Separable s.shortName := by decide +kernel
  have searched : TypeRef.IsSearched ⟨"Leaf", none⟩ := ⟨rfl, by decide +kernel, by decide +kernel⟩
  obtain ⟨meaning, found, means⟩ :=
    (scoped_of_separable shadowed names).1 3 0 _ _ rfl rfl searched
  refine ⟨names, found.trans (congrArg some ?_)⟩
  refine (means.innermost 1 (by decide) ⟨⟨2, ["Outer", "Leaf"], "Outer__Leaf", .message⟩,
    by decide +kernel, rfl⟩ ?_ ⟨2, ["Outer", "Leaf"], "Outer__Leaf", .message⟩
    (by decide +kernel)).2 rfl
  rintro k lt le ⟨s, hs, path⟩
  obtain rfl : k = 2 := Nat.le_antisymm le lt
  revert s
  decide +kernel

end Document

end ProtoSchema
