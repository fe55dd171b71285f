import Mathlib.Data.List.Basic
import Mathlib.Data.List.TakeWhile
import ProtoSchema.Symbol.PostOrder
import ProtoSchema.Symbol.Table

/-!
# Proofs/Symbols/PostOrder — post-order as a recursion

`postOrder` reads the symbols of a document once, with a stack.  On any list of symbols it takes
what follows a symbol, as long as it is deeper, for nested in it, and lists that before the symbol
(`postOrder_cons_append`).  So on declarations that are numbered as they come it is the recursion
that lists what is nested in a declaration before it (`postOrder_symbols`).  Two declarations stand
in that order just as `Precedes` says by their numbers alone (`pairwise_postDeclaredIn`).
-/

namespace ProtoSchema

/-! ## Numbered declarations -/

/-- The declarations nested in a declaration, to any depth. -/
def Declared.inner (d : Declared) : List Declared := declaredIn d.path d.declaration.body

/-- The symbol of a numbered declaration. -/
def Symbol.ofNumbered (p : Declared × Nat) : Symbol := Symbol.ofDeclared p.2 p.1

mutual

/-- What an entry declares, numbered from `id` and each after what is nested in it. -/
def Entry.postDeclared (id : Nat) (parent : List String) : Entry → List (Declared × Nat)
  | .field _ => []
  | .setting _ => []
  | .enum d => [(⟨parent ++ [d.name], .enum d⟩, id)]
  | .message name body =>
    postDeclaredIn (id + 1) (parent ++ [name]) body
      ++ [(⟨parent ++ [name], .message name body⟩, id)]

/-- **The declarations of a body**, numbered from `id` and each after what is nested in it. -/
def postDeclaredIn (id : Nat) (parent : List String) : List Entry → List (Declared × Nat)
  | [] => []
  | e :: es =>
    e.postDeclared id parent ++ postDeclaredIn (id + (e.declared parent).length) parent es

end

/-! ## Any list of symbols -/

/-- Symbols that are less deep than all that come stay at the bottom of the stack. -/
theorem postOrderFrom_append_base {base : List Symbol} :
    ∀ {xs stack : List Symbol}, (∀ x ∈ xs, ∀ b ∈ base, b.path.length < x.path.length) →
      postOrderFrom (stack ++ base) xs = postOrderFrom stack xs ++ base
  | [], _, _ => rfl
  | x :: xs, stack, h => by
      obtain ⟨first, others⟩ := List.forall_mem_cons.1 h
      have waits : ∀ b ∈ base, b.closedBy x.path.length = false := fun b hb => by
        simpa [Symbol.closedBy] using first b hb
      have dropped : (stack ++ base).dropWhile (·.closedBy x.path.length)
          = stack.dropWhile (·.closedBy x.path.length) ++ base := by
        rw [List.dropWhile_append]
        split_ifs with none
        · rw [List.isEmpty_iff.1 none, List.nil_append]
          cases base with
          | nil => rfl
          | cons b base => exact List.dropWhile_cons_of_neg (by simp [waits b])
        · rfl
      have taken : (stack ++ base).takeWhile (·.closedBy x.path.length)
          = stack.takeWhile (·.closedBy x.path.length) := by
        have whole := List.takeWhile_append_dropWhile (p := (·.closedBy x.path.length))
          (l := stack ++ base)
        have part := List.takeWhile_append_dropWhile (p := (·.closedBy x.path.length)) (l := stack)
        rw [dropped, ← List.append_assoc] at whole
        exact List.append_cancel_right ((List.append_cancel_right whole).trans part.symm)
      rw [postOrderFrom, postOrderFrom, taken, dropped, ← List.cons_append,
        postOrderFrom_append_base others, List.append_assoc]

/-- A symbol that is no deeper than all before it ends what waits for them. -/
theorem postOrderFrom_append_cons {t : Symbol} (rest : List Symbol) :
    ∀ {xs stack : List Symbol}, (∀ x ∈ xs, t.path.length ≤ x.path.length) →
      (∀ s ∈ stack, t.path.length ≤ s.path.length) →
      postOrderFrom stack (xs ++ t :: rest) = postOrderFrom stack xs ++ postOrder (t :: rest)
  | [], stack, _, h => by
      have closed : ∀ s ∈ stack, s.closedBy t.path.length = true := fun s hs =>
        decide_eq_true (h s hs)
      rw [List.nil_append, postOrderFrom, postOrderFrom, List.takeWhile_eq_self_iff.2 closed,
        List.dropWhile_eq_nil_iff.2 closed]
      rfl
  | x :: xs, stack, hxs, h => by
      obtain ⟨first, others⟩ := List.forall_mem_cons.1 hxs
      have left : ∀ s ∈ x :: stack.dropWhile (·.closedBy x.path.length),
          t.path.length ≤ s.path.length :=
        List.forall_mem_cons.2 ⟨first, fun s hs => h s ((List.dropWhile_suffix _).subset hs)⟩
      rw [List.cons_append, postOrderFrom, postOrderFrom,
        postOrderFrom_append_cons rest others left, List.append_assoc]

/-- The first symbol, if there is one, is no deeper than `k`. -/
def StartsAt (k : Nat) (symbols : List Symbol) : Prop := ∀ s ∈ symbols.head?, s.path.length ≤ k

theorem startsAt_nil (k : Nat) : StartsAt k [] := nofun

/-- **Deeper symbols that follow a symbol come before it**, in post-order, and the rest after it. -/
theorem postOrder_cons_append {s : Symbol} {xs ys : List Symbol}
    (deeper : ∀ x ∈ xs, s.path.length < x.path.length) (apart : StartsAt s.path.length ys) :
    postOrder (s :: (xs ++ ys)) = postOrder xs ++ s :: postOrder ys := by
  have nested : postOrderFrom ([] ++ [s]) xs = postOrder xs ++ [s] :=
    postOrderFrom_append_base (by simpa using deeper)
  have start : postOrder (s :: (xs ++ ys)) = postOrderFrom ([] ++ [s]) (xs ++ ys) := rfl
  rw [start]
  cases ys with
  | nil =>
    rw [List.append_nil]
    exact nested
  | cons t ys =>
    have shallow : t.path.length ≤ s.path.length := apart t rfl
    rw [postOrderFrom_append_cons, nested, List.append_assoc]
    · rfl
    · exact fun x hx => Nat.le_of_lt (Nat.lt_of_le_of_lt shallow (deeper x hx))
    · simpa using shallow

/-! ## The symbols of declarations -/

mutual

theorem Entry.length_lt_of_mem_declared (parent : List String) :
    ∀ (e : Entry), ∀ d ∈ e.declared parent, parent.length < d.path.length
  | .field _, _, hd | .setting _, _, hd => absurd hd List.not_mem_nil
  | .enum _, d, hd => by
      obtain rfl := List.mem_singleton.1 hd
      simp
  | .message name body, d, hd => by
      rcases List.mem_cons.1 hd with rfl | hd
      · simp
      · have inner := length_lt_of_mem_declaredIn (parent ++ [name]) body d hd
        rw [List.length_append] at inner
        exact Nat.lt_of_succ_lt inner

/-- What is declared in a body is deeper than the body. -/
theorem length_lt_of_mem_declaredIn (parent : List String) :
    ∀ (es : List Entry), ∀ d ∈ declaredIn parent es, parent.length < d.path.length
  | [], _, hd => absurd hd List.not_mem_nil
  | e :: es, d, hd => (List.mem_append.1 hd).elim (Entry.length_lt_of_mem_declared parent e d)
      (length_lt_of_mem_declaredIn parent es d)

end

/-- The symbols of declarations that are numbered from `id`. -/
def symbolsFrom (id : Nat) (ds : List Declared) : List Symbol :=
  (ds.zipIdx id).map Symbol.ofNumbered

theorem symbolsFrom_append (id : Nat) (xs ys : List Declared) :
    symbolsFrom id (xs ++ ys) = symbolsFrom id xs ++ symbolsFrom (id + xs.length) ys := by
  rw [symbolsFrom, List.zipIdx_append, List.map_append]
  rfl

theorem length_lt_of_mem_symbolsFrom (id : Nat) (parent : List String) (es : List Entry) :
    ∀ s ∈ symbolsFrom id (declaredIn parent es), parent.length < s.path.length := by
  intro s hs
  obtain ⟨p, hp, rfl⟩ := List.mem_map.1 hs
  exact length_lt_of_mem_declaredIn parent es p.1 (List.fst_mem_of_mem_zipIdx hp)

/-- The first declaration of a body stands in the body itself. -/
theorem startsAt_symbolsFrom (parent : List String) {rest : List Symbol}
    (h : StartsAt (parent.length + 1) rest) :
    ∀ (id : Nat) (es : List Entry),
      StartsAt (parent.length + 1) (symbolsFrom id (declaredIn parent es) ++ rest)
  | _, [] => h
  | id, .field _ :: es | id, .setting _ :: es => startsAt_symbolsFrom parent h id es
  | id, .message name _ :: _ | id, .enum ⟨name, _⟩ :: _ => by
      rintro s ⟨⟩
      simp [Symbol.ofNumbered, Symbol.ofDeclared]

mutual

theorem Entry.postOrder_append (parent : List String) {rest : List Symbol}
    (h : StartsAt (parent.length + 1) rest) : ∀ (id : Nat) (e : Entry),
      postOrder (symbolsFrom id (e.declared parent) ++ rest)
        = (e.postDeclared id parent).map Symbol.ofNumbered ++ postOrder rest
  | _, .field _ | _, .setting _ => rfl
  | id, .enum d => by
      have depth : (parent ++ [d.name]).length = parent.length + 1 := by simp
      exact postOrder_cons_append (List.forall_mem_nil _) (depth ▸ h)
  | id, .message name body => by
      have depth : (parent ++ [name]).length = parent.length + 1 := by simp
      have inner := postOrder_declaredIn_append (parent ++ [name]) (startsAt_nil _) (id + 1) body
      have none : postOrder [] = [] := rfl
      rw [List.append_nil, none, List.append_nil] at inner
      have deeper := length_lt_of_mem_symbolsFrom (id + 1) (parent ++ [name]) body
      refine (postOrder_cons_append deeper (depth ▸ h)).trans ?_
      rw [Entry.postDeclared, List.map_append, List.append_assoc, ← inner]
      rfl

/-- **The post-order of what a body declares is the recursion over its entries**, whatever comes
after the body. -/
theorem postOrder_declaredIn_append (parent : List String) {rest : List Symbol}
    (h : StartsAt (parent.length + 1) rest) : ∀ (id : Nat) (es : List Entry),
      postOrder (symbolsFrom id (declaredIn parent es) ++ rest)
        = (postDeclaredIn id parent es).map Symbol.ofNumbered ++ postOrder rest
  | _, [] => rfl
  | id, e :: es => by
      rw [declaredIn, symbolsFrom_append, List.append_assoc,
        Entry.postOrder_append parent (startsAt_symbolsFrom parent h _ es),
        postOrder_declaredIn_append parent h, postDeclaredIn, List.map_append, List.append_assoc]

end

/-- **The post-order of a document's symbols is the recursion over its entries.** -/
theorem postOrder_symbols (d : Document) :
    postOrder d.symbols = (postDeclaredIn 0 [] d.entries).map Symbol.ofNumbered := by
  have whole := postOrder_declaredIn_append [] (startsAt_nil _) 0 d.entries
  rw [List.append_nil] at whole
  exact whole.trans (List.append_nil _)

/-! ## Order by number -/

mutual

/-- The recursion lists what an entry declares. -/
theorem Entry.postDeclared_perm (id : Nat) (parent : List String) :
    ∀ e : Entry, (e.postDeclared id parent).Perm ((e.declared parent).zipIdx id)
  | .field _ | .setting _ | .enum _ => .refl _
  | .message name body =>
    ((postDeclaredIn_perm (id + 1) (parent ++ [name]) body).append_right _).trans
      List.perm_append_comm

/-- The recursion lists the declarations of a body. -/
theorem postDeclaredIn_perm (id : Nat) (parent : List String) :
    ∀ es : List Entry, (postDeclaredIn id parent es).Perm ((declaredIn parent es).zipIdx id)
  | [] => .refl _
  | e :: es => by
      rw [declaredIn, List.zipIdx_append]
      exact (Entry.postDeclared_perm id parent e).append (postDeclaredIn_perm _ parent es)

end

/-- The declarations of a document with their numbers. -/
theorem Document.mem_postDeclared_iff {d : Document} {p : Declared × Nat} :
    p ∈ postDeclaredIn 0 [] d.entries ↔ d.declared[p.2]? = some p.1 := by
  rw [(postDeclaredIn_perm 0 [] d.entries).mem_iff]
  exact List.mem_zipIdx_iff_getElem?

mutual

/-- What an entry declares, with all that is nested in it, is numbered within the entry's stretch.
-/
theorem Entry.bounds_postDeclared (id : Nat) (parent : List String) :
    ∀ (e : Entry), ∀ p ∈ e.postDeclared id parent,
      id ≤ p.2 ∧ p.2 + p.1.inner.length < id + (e.declared parent).length
  | .field _, _, hp | .setting _, _, hp => absurd hp List.not_mem_nil
  | .enum d, p, hp => by
      obtain rfl := List.mem_singleton.1 hp
      exact ⟨Nat.le_refl id, Nat.lt_succ_self id⟩
  | .message name body, p, hp => by
      rw [Entry.declared, List.length_cons]
      rcases List.mem_append.1 hp with hp | hp
      · have inside := bounds_postDeclaredIn (id + 1) (parent ++ [name]) body p hp
        omega
      · obtain rfl := List.mem_singleton.1 hp
        exact ⟨Nat.le_refl id, Nat.lt_succ_self _⟩

theorem bounds_postDeclaredIn (id : Nat) (parent : List String) :
    ∀ (es : List Entry), ∀ p ∈ postDeclaredIn id parent es,
      id ≤ p.2 ∧ p.2 + p.1.inner.length < id + (declaredIn parent es).length
  | [], _, hp => absurd hp List.not_mem_nil
  | e :: es, p, hp => by
      rw [declaredIn, List.length_append]
      rcases List.mem_append.1 hp with hp | hp
      · have first := Entry.bounds_postDeclared id parent e p hp
        omega
      · have others := bounds_postDeclaredIn _ parent es p hp
        omega

end

/-- **The first declaration is nested in the second, or ends before it starts**, by their numbers: a
declaration is followed by what is nested in it. -/
def Precedes (p q : Declared × Nat) : Prop :=
  (q.2 < p.2 ∧ p.2 ≤ q.2 + q.1.inner.length) ∨ p.2 + p.1.inner.length < q.2

theorem Precedes.asymm {p q : Declared × Nat} (h : Precedes p q) : ¬ Precedes q p := by
  unfold Precedes at *
  omega

mutual

theorem Entry.pairwise_postDeclared (id : Nat) (parent : List String) :
    ∀ e : Entry, (e.postDeclared id parent).Pairwise Precedes
  | .field _ | .setting _ => .nil
  | .enum _ => List.pairwise_singleton _ _
  | .message name body => by
      rw [Entry.postDeclared, List.pairwise_append]
      refine ⟨pairwise_postDeclaredIn (id + 1) (parent ++ [name]) body, List.pairwise_singleton _ _,
        fun p hp q hq => .inl ?_⟩
      obtain rfl := List.mem_singleton.1 hq
      have inside := bounds_postDeclaredIn (id + 1) (parent ++ [name]) body p hp
      change id < p.2 ∧ p.2 ≤ id + (declaredIn (parent ++ [name]) body).length
      omega

/-- **Post-order lists a declaration after those that precede it.** -/
theorem pairwise_postDeclaredIn (id : Nat) (parent : List String) :
    ∀ es : List Entry, (postDeclaredIn id parent es).Pairwise Precedes
  | [] => .nil
  | e :: es => by
      rw [postDeclaredIn, List.pairwise_append]
      refine ⟨Entry.pairwise_postDeclared id parent e, pairwise_postDeclaredIn _ parent es,
        fun p hp q hq => .inr ?_⟩
      have first := Entry.bounds_postDeclared id parent e p hp
      have second := bounds_postDeclaredIn _ parent es q hq
      omega

end

/-- **Post-order of a document's symbol table** is the recursion over its entries, what is nested in
a declaration before it; and whatever symbols are put in post-order, none is lost and none added. -/
theorem Document.postOrder_symbolTable (d : Document) :
    postOrder d.symbolTable.symbols = (postDeclaredIn 0 [] d.entries).map Symbol.ofNumbered
      ∧ ∀ symbols : List Symbol, (postOrder symbols).Perm symbols :=
  ⟨postOrder_symbols d, postOrder_perm⟩

end ProtoSchema
