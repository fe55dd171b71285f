import Mathlib.Data.List.Basic
import ProtoSchema.Proofs.Document.Steps

/-!
# Proofs/Document/StrayComments — comments that annotate no import

Of the statement before it a statement only asks whether it is an import (`Draft.accept_congr`).  A
comment that follows no import does nothing, and what follows it asks the same as if it was not
there.  So these comments can be left out of a list of statements: it makes the same document, or
goes wrong in the same way at the same statement (`Document.ofStatements_withoutStrayComments`).
-/

namespace ProtoSchema

/-- **The statements without the comments that follow no import**, given the kind of the statement
before the first.  What a comment follows is what stands before it in the whole list. -/
def withoutStrayComments (previous : Option StatementKind) : List String → List String
  | [] => []
  | text :: texts =>
    let kind := (Statement.ofText text).kind
    if kind = .comment ∧ previous ≠ some .importing then withoutStrayComments (some kind) texts
    else text :: withoutStrayComments (some kind) texts

theorem withoutStrayComments_sublist (previous : Option StatementKind) (texts : List String) :
    (withoutStrayComments previous texts).Sublist texts := by
  induction texts generalizing previous with
  | nil => exact .slnil
  | cons text texts ih =>
    rw [withoutStrayComments]
    split_ifs
    · exact (ih _).cons text
    · exact (ih _).cons_cons text

/-- **Reading goes the same way without the stray comments**, where `k` of them are left out so far:
it comes to the same draft, or stops at the same statement. -/
theorem Draft.readFrom_withoutStrayComments (texts : List String) :
    ∀ previous previous' : Option StatementKind,
      (previous = some .importing ↔ previous' = some .importing) → ∀ (d : Draft) (index k : Nat),
      ∃ n, n + (withoutStrayComments previous texts).length ≤ k + texts.length
        ∧ (d.readFrom previous (index + k) texts).result
          = (d.readFrom previous' index (withoutStrayComments previous texts)).result.mapError
              (ParseError.later n) := by
  induction texts with
  | nil => exact fun _ _ _ d index k => ⟨k, Nat.le_refl _, rfl⟩
  | cons text texts ih =>
    intro previous previous' same d index k
    rw [withoutStrayComments]
    split_ifs with stray
    · -- The comment is left out.  What follows it follows no import, in the shorter list neither.
      obtain ⟨comment, apart⟩ := stray
      have apart' : previous' ≠ some .importing := fun h => apart (same.2 h)
      have other : some (Statement.ofText text).kind ≠ some .importing := by simp [comment]
      obtain ⟨n, few, read⟩ := ih _ _ (iff_of_false other apart') d index (k + 1)
      refine ⟨n, by rw [List.length_cons]; omega, ?_⟩
      rw [readFrom, accept_comment comment apart]
      exact read
    · cases accepted : d.accept previous (Statement.ofText text) with
      | none =>
        have short :=
          (withoutStrayComments_sublist (some (Statement.ofText text).kind) texts).length_le
        refine ⟨k, Nat.add_le_add_left (Nat.succ_le_succ short) k, ?_⟩
        rw [readFrom, readFrom, ← accept_congr same, accepted]
        simp [Except.mapError, ParseError.later]
      | some a =>
        obtain ⟨n, few, read⟩ := ih (some (Statement.ofText text).kind) _ Iff.rfl a.draft
          (index + 1) k
        refine ⟨n, by rw [List.length_cons, List.length_cons]; omega, ?_⟩
        rw [readFrom, readFrom, ← accept_congr same, accepted]
        rw [Nat.add_right_comm] at read
        exact read

namespace Document

/-- Statements that are read alike make the same document, or go wrong in the same way. -/
theorem ofStatements_of_readFrom {xs ys : List String} {n : Nat}
    (read : (Draft.empty.readFrom none 1 xs).result
      = (Draft.empty.readFrom none 1 ys).result.mapError (ParseError.later n)) :
    ofStatements xs = (ofStatements ys).mapError (ParseError.later n) := by
  rw [ofStatements_eq, ofStatements_eq, read]
  cases (Draft.empty.readFrom none 1 ys).result with
  | error e => rfl
  | ok d =>
    -- A container that is not closed has no place that could be a later one.
    change d.finish.mapError _ = (d.finish.mapError _).mapError _
    cases d.finish <;> rfl

/-- **Only comments that follow an import count.**  Statements make the same document without the
others, or go wrong in the same way: for a container that is not closed, or at the same closing
brace, whose number counts the comments before it. -/
theorem ofStatements_withoutStrayComments (texts : List String) :
    (∃ d, ofStatements texts = .ok d ∧ ofStatements (withoutStrayComments none texts) = .ok d)
      ∨ ∃ e n, ofStatements (withoutStrayComments none texts) = .error e
        ∧ ofStatements texts = .error (e.later n)
        ∧ n + (withoutStrayComments none texts).length ≤ texts.length := by
  obtain ⟨n, few, read⟩ :=
    Draft.readFrom_withoutStrayComments texts none none Iff.rfl .empty 1 0
  rw [Nat.zero_add] at few
  rw [ofStatements_of_readFrom read]
  cases ofStatements (withoutStrayComments none texts) with
  | ok d => exact .inl ⟨d, rfl, rfl⟩
  | error e => exact .inr ⟨e, n, rfl, rfl, few⟩

/-- The second comment follows a comment, the first and the last follow an import. -/
example : withoutStrayComments none
      ["import \"a.proto\"", "// package: b", "// package: c", "import \"d.proto\"", "// e"]
    = ["import \"a.proto\"", "// package: b", "import \"d.proto\"", "// e"] := by decide

end Document

end ProtoSchema
