import ProtoSchema.Symbol

/-!
# Symbol/PostOrder — children before their parents

Symbols that list each parent before its children are turned into the order that lists it after
them.  A symbol waits on a stack while the symbols after it have longer paths.
-/

namespace ProtoSchema

/-- The symbol waits no longer when one at this depth comes. -/
def Symbol.closedBy (depth : Nat) (s : Symbol) : Bool := depth ≤ s.path.length

/-- Orders the symbols after those that wait on the stack, the last of them first. -/
def postOrderFrom : (stack : List Symbol) → List Symbol → List Symbol
  | stack, [] => stack
  | stack, s :: rest =>
    stack.takeWhile (·.closedBy s.path.length)
      ++ postOrderFrom (s :: stack.dropWhile (·.closedBy s.path.length)) rest

/-- **Every symbol after the deeper ones that follow it.** -/
def postOrder (symbols : List Symbol) : List Symbol := postOrderFrom [] symbols

/-- Nothing is lost and nothing is listed twice. -/
theorem postOrderFrom_perm :
    ∀ (stack symbols : List Symbol), (postOrderFrom stack symbols).Perm (stack ++ symbols)
  | stack, [] => by simp [postOrderFrom]
  | stack, s :: rest => by
      have split := List.takeWhile_append_dropWhile
        (p := (·.closedBy s.path.length)) (l := stack)
      rw [postOrderFrom]
      refine ((postOrderFrom_perm _ rest).append_left _).trans ?_
      conv => rhs; rw [← split, List.append_assoc]
      exact (List.perm_middle.symm).append_left _

theorem postOrder_perm (symbols : List Symbol) : (postOrder symbols).Perm symbols :=
  postOrderFrom_perm [] symbols

end ProtoSchema
