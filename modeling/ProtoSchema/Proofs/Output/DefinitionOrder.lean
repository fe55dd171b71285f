import Mathlib.Logic.Relation
import ProtoSchema.Document.Reader
import ProtoSchema.Proofs.Output.Blocks

/-!
# Proofs/Output/DefinitionOrder — which schemas are defined before they are used

Every document has its shapes, one for each declaration and in post-order (`exists_shapes`), and the
schemas are written in that order.  A schema that a message refers to is defined before the
message's own just if it is nested in the message, or stands before it and not around it
(`schemaBefore_iff`); a reference to a later declaration of the file finds no schema yet.
-/

namespace ProtoSchema

variable {α : Type}

/-! ## Order in a list -/

/-- Of two members of a list one stands before the other. -/
theorem pair_sublist_or {a b : α} {l : List α} (ha : a ∈ l) (hb : b ∈ l) (ne : a ≠ b) :
    [a, b].Sublist l ∨ [b, a].Sublist l := by
  obtain ⟨xs, ys, rfl⟩ := List.append_of_mem ha
  rcases List.mem_append.1 hb with hb | hb
  · have front := List.singleton_sublist.2 hb
    exact .inr (front.append (List.singleton_sublist.2 List.mem_cons_self))
  · have back := List.singleton_sublist.2 ((List.mem_cons.1 hb).resolve_left ne.symm)
    exact .inl ((back.cons_cons a).trans (List.sublist_append_right xs _))

namespace Document

variable {d : Document} {i j : Nat} {m t : Declared}

/-- The numbers of the declarations in the order of their schemas. -/
def schemaOrder (d : Document) : List Nat := (postOrder d.symbols).map Symbol.id

/-- **The schema of declaration `i` is defined before that of declaration `j`.** -/
def SchemaBefore (d : Document) (i j : Nat) : Prop := [i, j].Sublist d.schemaOrder

/-- **Declaration `i` is nested in declaration `j`**, at any depth: what is nested in a declaration
has the numbers that follow its own. -/
def NestedIn (d : Document) (i j : Nat) : Prop :=
  ∃ t, d.declared[j]? = some t ∧ j < i ∧ i ≤ j + t.inner.length

theorem schemaOrder_eq (d : Document) :
    d.schemaOrder = (postDeclaredIn 0 [] d.entries).map Prod.snd := by
  rw [schemaOrder, postOrder_symbols, List.map_map]
  rfl

/-- Schemas are ordered as `Precedes` says. -/
theorem schemaBefore_iff_precedes (hi : d.declared[i]? = some m) (hj : d.declared[j]? = some t) :
    d.SchemaBefore i j ↔ Precedes (m, i) (t, j) := by
  have pairwise := pairwise_postDeclaredIn 0 [] d.entries
  have memI : (m, i) ∈ postDeclaredIn 0 [] d.entries := mem_postDeclared_iff.2 hi
  have memJ : (t, j) ∈ postDeclaredIn 0 [] d.entries := mem_postDeclared_iff.2 hj
  rw [SchemaBefore, schemaOrder_eq]
  constructor
  · intro before
    obtain ⟨ps, sub, pair⟩ := List.sublist_map_iff.1 before
    obtain ⟨p, qs, rfl, rfl, rest⟩ := List.map_eq_cons_iff.1 pair.symm
    obtain ⟨q, rs, rfl, rfl, none⟩ := List.map_eq_cons_iff.1 rest
    obtain rfl := List.map_eq_nil_iff.1 none
    have hp := mem_postDeclared_iff.1 (sub.subset List.mem_cons_self)
    have hq := mem_postDeclared_iff.1 (sub.subset (List.mem_cons_of_mem p List.mem_cons_self))
    obtain rfl := Option.some.inj (hi.symm.trans hp)
    obtain rfl := Option.some.inj (hj.symm.trans hq)
    exact List.pairwise_iff_forall_sublist.1 pairwise sub
  · intro precedes
    have ne : (m, i) ≠ (t, j) := fun e => (e ▸ precedes).asymm (e ▸ precedes)
    rcases pair_sublist_or memI memJ ne with sub | sub
    · exact sub.map Prod.snd
    · exact absurd (List.pairwise_iff_forall_sublist.1 pairwise sub) precedes.asymm

/-- **A schema is defined before another just if its declaration is nested in the other's, or
stands before it and not around it.** -/
theorem schemaBefore_iff (hi : d.declared[i]? = some m) (hj : d.declared[j]? = some t) :
    d.SchemaBefore i j ↔ d.NestedIn i j ∨ (i < j ∧ ¬ d.NestedIn j i) := by
  rw [schemaBefore_iff_precedes hi hj]
  simp only [NestedIn, hi, hj, Option.some.injEq, exists_eq_left', Precedes]
  omega

/-! ## Shapes -/

theorem name_shapeOf (d : Document) (m : Declared) : (d.shapeOf m).name = flatten m.path := by
  obtain ⟨path, _ | _⟩ := m <;> rfl

/-- **Every document has its shapes**, one for each declaration and in the order of its schemas. -/
theorem exists_shapes (d : Document) :
    ∃ shapes, d.symbolTable.shapes d = .ok shapes
      ∧ shapes.map Shape.name = (postOrder d.symbols).map Symbol.flatName := by
  refine ⟨_, shapes_symbolTable d, ?_⟩
  rw [postOrder_symbols, postDeclared, List.map_map, List.map_map, List.map_map]
  exact List.map_congr_left fun p _ => name_shapeOf d p.1

/-! ## References -/

/-- **A field of declaration `i` refers to declaration `j`** of the document. -/
def RefersTo (d : Document) (i j : Nat) : Prop :=
  ∃ m t place f, d.declared[i]? = some m ∧ d.declared[j]? = some t
    ∧ m.declaration.body[place]? = some (.field f)
    ∧ d.symbolTable.field? i place = some (.declared (flatten t.path))

/-- No declaration refers to itself, directly or by way of others. -/
def Acyclic (d : Document) : Prop := ∀ i, ¬ Relation.TransGen d.RefersTo i i

/-- **The schemas of a document come in the order of its shapes, and one that a message refers to is
defined before the message's own just if it is nested in the message, or stands before the message
and not around it.** -/
theorem schemas_defined_before_iff (d : Document) (config : Config) :
    ∃ shapes, d.symbolTable.shapes d = .ok shapes
      ∧ shapes.map Shape.name = (postOrder d.symbols).map Symbol.flatName
      ∧ Zod.render d d.symbolTable config = (do
        let texts ← shapes.mapM Zod.shapeText
        return "import \x7b z \x7d from \"zod\";\n" ++ String.join config.headerLines
          ++ d.importLines ++ "\n" ++ String.join texts)
      ∧ ∀ i j, d.RefersTo i j →
        (d.SchemaBefore j i ↔ d.NestedIn j i ∨ (j < i ∧ ¬ d.NestedIn i j)) := by
  obtain ⟨shapes, succeeds, names⟩ := exists_shapes d
  refine ⟨shapes, succeeds, names, ?_, ?_⟩
  · rw [Zod.render, succeeds]
    rfl
  · rintro i j ⟨m, t, place, f, hm, ht, -, -⟩
    exact schemaBefore_iff ht hm

/-- A document whose first message has a field of the type of its second. -/
def usedEarly : Document where
  version := ""
  package := ""
  imports := []
  entries := [.message "A" [.field ⟨"b", ⟨"B", none⟩, 1, 0, false, false⟩], .message "B" []]
  services := []

theorem lt_of_refersTo_usedEarly (h : usedEarly.RefersTo i j) : i < j := by
  obtain ⟨m, t, place, f, hm, ht, hf, refers⟩ := h
  match i, place, hm, hf with
  | 0, 0, rfl, rfl =>
    match j, ht with
    | 0, rfl => exact absurd refers (by decide +kernel)
    | 1, rfl => exact Nat.zero_lt_one

/-- **A schema that is declared later is not defined before it is used**, though no declaration
refers to itself. -/
theorem not_schemaBefore_usedEarly :
    ofText "message A \x7b B b = 1; \x7d message B \x7b \x7d" = .ok usedEarly
      ∧ usedEarly.Acyclic ∧ usedEarly.RefersTo 0 1 ∧ ¬ usedEarly.SchemaBefore 1 0 := by
  refine ⟨by decide +kernel, fun i cycle => ?_, ?_, ?_⟩
  · have increases : ∀ {k}, Relation.TransGen usedEarly.RefersTo i k → i < k := fun path => by
      induction path with
      | single step => exact lt_of_refersTo_usedEarly step
      | tail _ step ih => exact Nat.lt_trans ih (lt_of_refersTo_usedEarly step)
    exact Nat.lt_irrefl i (increases cycle)
  · exact ⟨_, _, 0, ⟨"b", ⟨"B", none⟩, 1, 0, false, false⟩, rfl, rfl, rfl, by decide +kernel⟩
  · unfold SchemaBefore
    decide +kernel

end Document

end ProtoSchema
