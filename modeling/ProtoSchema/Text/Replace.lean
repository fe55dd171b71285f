/-!
# Text/Replace — replacing phrases from left to right

A rule looks at the front of a text.  If a phrase it knows stands there, it gives the replacement
and the number of characters the phrase has after its first.  `replaceAll` applies a rule at the
first place where it fits, goes on after the phrase, and copies the characters in between.
-/

namespace ProtoSchema.Text

/-- What stands at the front of a text: the replacement, and how many characters after the first it
replaces. -/
abbrev Rule := List Char → Option (List Char × Nat)

/-- Leaves out `skip` characters, then replaces in the rest. -/
def replaceFrom (rule : Rule) : (skip : Nat) → List Char → List Char
  | _, [] => []
  | skip + 1, _ :: cs => replaceFrom rule skip cs
  | 0, c :: cs => match rule (c :: cs) with
    | some (new, more) => new ++ replaceFrom rule more cs
    | none => c :: replaceFrom rule 0 cs

/-- **The text with every phrase of the rule replaced**, leftmost first, without overlaps. -/
def replaceAll (rule : Rule) : List Char → List Char := replaceFrom rule 0

theorem replaceFrom_eq_drop (rule : Rule) :
    ∀ (skip : Nat) (cs : List Char), replaceFrom rule skip cs = replaceAll rule (cs.drop skip)
  | 0, _ => rfl
  | _ + 1, [] => rfl
  | skip + 1, _ :: cs => by
      rw [replaceFrom, List.drop_succ_cons, replaceFrom_eq_drop rule skip cs]

@[simp] theorem replaceAll_nil (rule : Rule) : replaceAll rule [] = [] := rfl

/-- Where the rule does not fit, the character is copied. -/
theorem replaceAll_cons_of_none {rule : Rule} {c : Char} {cs : List Char}
    (h : rule (c :: cs) = none) : replaceAll rule (c :: cs) = c :: replaceAll rule cs := by
  simp only [replaceAll, replaceFrom, h]

/-- Where the rule fits, the replacement stands for the phrase. -/
theorem replaceAll_cons_of_some {rule : Rule} {c : Char} {cs new : List Char} {more : Nat}
    (h : rule (c :: cs) = some (new, more)) :
    replaceAll rule (c :: cs) = new ++ replaceAll rule (cs.drop more) := by
  rw [← replaceFrom_eq_drop]
  simp only [replaceAll, replaceFrom, h]

/-- The rule that replaces a fixed phrase. -/
def Rule.phrase (old new : List Char) : Rule := fun cs =>
  if old.isPrefixOf cs then some (new, old.length - 1) else none

/-- The phrase stands somewhere in the text. -/
def occurs (phrase : List Char) : List Char → Bool
  | [] => phrase.isEmpty
  | c :: cs => phrase.isPrefixOf (c :: cs) || occurs phrase cs

end ProtoSchema.Text
