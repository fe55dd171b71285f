import Mathlib.Data.List.Basic

/-!
# Proofs/Braces/Nesting — words of opening and closing braces

A word of braces is nested on a stack of names: an opener pushes its name, a closer pops one.  A
word is *covered* if no prefix of it has more closers than openers, and *balanced* if moreover it
has as many of both.  What nesting comes to is said by two numbers, the names it takes off the stack
(`deficit`) and the openers no closer matches (`unmatched`): see `nestAll_eq`.

Where names do not matter, a word is known by the number of open containers it leads to from each
number (`levels`), and words that agree in this are *alike*.
-/

namespace ProtoSchema

/-- What a statement does to the open containers. -/
inductive Brace
  | neutral
  | opener (name : String)
  | closer
deriving Repr, DecidableEq, Inhabited

namespace Brace

/-! ## Covered and balanced words -/

/-- The brace opens a container. -/
def isOpener : Brace → Bool
  | opener _ => true
  | _ => false

/-- The brace closes a container. -/
def isCloser : Brace → Bool
  | closer => true
  | _ => false

/-- The number of openers. -/
def openers (bs : List Brace) : Nat := bs.countP isOpener

/-- The number of closers. -/
def closers (bs : List Brace) : Nat := bs.countP isCloser

/-- **No prefix has more closers than openers.** -/
def Covered (bs : List Brace) : Prop := ∀ xs ys, bs = xs ++ ys → closers xs ≤ openers xs

/-- **A balanced word**: covered, and with as many closers as openers. -/
def Balanced (bs : List Brace) : Prop := Covered bs ∧ openers bs = closers bs

/-- The number of closers that no opener of the word matches. -/
def deficit : List Brace → Nat
  | [] => 0
  | neutral :: bs => deficit bs
  | opener _ :: bs => deficit bs - 1
  | closer :: bs => deficit bs + 1

section

variable (name : String) (b : Brace) (bs : List Brace)

@[simp] theorem openers_nil : openers [] = 0 := rfl

@[simp] theorem closers_nil : closers [] = 0 := rfl

@[simp] theorem openers_neutral : openers (neutral :: bs) = openers bs :=
  List.countP_cons_of_neg Bool.false_ne_true

@[simp] theorem openers_opener : openers (opener name :: bs) = openers bs + 1 :=
  List.countP_cons_of_pos rfl

@[simp] theorem openers_closer : openers (closer :: bs) = openers bs :=
  List.countP_cons_of_neg Bool.false_ne_true

@[simp] theorem closers_neutral : closers (neutral :: bs) = closers bs :=
  List.countP_cons_of_neg Bool.false_ne_true

@[simp] theorem closers_opener : closers (opener name :: bs) = closers bs :=
  List.countP_cons_of_neg Bool.false_ne_true

@[simp] theorem closers_closer : closers (closer :: bs) = closers bs + 1 :=
  List.countP_cons_of_pos rfl

end

variable {n : Nat} {b : Brace} {bs : List Brace}

/-- A bound on all prefixes of a word is one on the empty prefix and one on those that start with
its first brace. -/
theorem forall_prefix_cons {p : List Brace → Prop} :
    (∀ xs ys, b :: bs = xs ++ ys → p xs) ↔ p [] ∧ ∀ xs ys, bs = xs ++ ys → p (b :: xs) := by
  constructor
  · intro h
    refine ⟨h [] (b :: bs) rfl, fun xs ys e => h (b :: xs) ys ?_⟩
    rw [e, List.cons_append]
  · rintro ⟨hnil, hcons⟩ xs ys e
    cases xs with
    | nil => exact hnil
    | cons x xs =>
      obtain ⟨rfl, rest⟩ := List.cons.inj e
      exact hcons xs ys rest

/-- **The deficit is the greatest excess of closers over openers in a prefix.** -/
theorem deficit_le_iff :
    deficit bs ≤ n ↔ ∀ xs ys, bs = xs ++ ys → closers xs ≤ openers xs + n := by
  induction bs generalizing n with
  | nil =>
    refine ⟨fun _ xs ys e => ?_, fun _ => Nat.zero_le n⟩
    obtain ⟨rfl, -⟩ := List.append_eq_nil_iff.1 e.symm
    exact Nat.zero_le _
  | cons b bs ih =>
    rw [forall_prefix_cons]
    cases b with
    | neutral =>
      simp only [closers_neutral, openers_neutral, ← ih]
      simp [deficit]
    | opener name =>
      have shift : ∀ a b : Nat, a ≤ b + 1 + n ↔ a ≤ b + (n + 1) := fun a b => by omega
      simp only [closers_opener, openers_opener, shift, ← ih]
      simp [deficit]
    | closer =>
      cases n with
      | zero =>
        refine ⟨fun h => absurd h (by simp [deficit]), fun h => ?_⟩
        have first := h.2 [] bs rfl
        simp at first
      | succ n =>
        have shift : ∀ a b : Nat, a + 1 ≤ b + (n + 1) ↔ a ≤ b + n := fun a b => by omega
        simp only [closers_closer, openers_closer, shift, ← ih]
        simp [deficit]

theorem covered_iff : Covered bs ↔ deficit bs = 0 := by
  rw [← Nat.le_zero, deficit_le_iff]
  rfl

instance : DecidablePred Covered := fun _ => decidable_of_iff _ covered_iff.symm

instance : DecidablePred Balanced := fun bs =>
  inferInstanceAs (Decidable (Covered bs ∧ openers bs = closers bs))

/-! ## Unmatched openers -/

/-- **The names of the openers that no closer matches**, in order: what follows such an opener never
closes more than it opens. -/
def unmatched : List Brace → List String
  | [] => []
  | opener name :: bs => if Covered bs then name :: unmatched bs else unmatched bs
  | _ :: bs => unmatched bs

/-- An opener is matched or unmatched, a closer matches one or is part of the deficit. -/
theorem length_unmatched : ∀ bs : List Brace,
    (unmatched bs).length + closers bs = openers bs + deficit bs
  | [] => rfl
  | neutral :: bs => by
      have rest := length_unmatched bs
      simpa [unmatched, deficit] using rest
  | closer :: bs => by
      have rest := length_unmatched bs
      simp only [unmatched, deficit, openers_closer, closers_closer]
      omega
  | opener name :: bs => by
      have rest := length_unmatched bs
      simp only [unmatched, deficit, openers_opener, closers_opener]
      split_ifs with covered
      · have none := covered_iff.1 covered
        rw [List.length_cons]
        omega
      · have some : deficit bs ≠ 0 := fun e => covered (covered_iff.2 e)
        omega

/-! ## Nesting -/

/-- The names on the stack after a brace; none to pop is no stack. -/
def nest : List String → Brace → Option (List String)
  | names, neutral => some names
  | names, opener name => some (name :: names)
  | _ :: names, closer => some names
  | [], closer => none

/-- The names on the stack after a word. -/
def nestAll (names : List String) (bs : List Brace) : Option (List String) := bs.foldlM nest names

theorem nestAll_cons (names : List String) (b : Brace) (bs : List Brace) :
    nestAll names (b :: bs) = (nest names b).bind fun names => nestAll names bs := List.foldlM_cons

/-- **A word nests unless it pops more than there is**; then its unmatched openers are on top of
what it leaves of the stack. -/
theorem nestAll_eq : ∀ (bs : List Brace) (names : List String),
    nestAll names bs
      = if deficit bs ≤ names.length then some ((unmatched bs).reverse ++ names.drop (deficit bs))
        else none
  | [], names => by simp [nestAll, unmatched, deficit]
  | neutral :: bs, names => nestAll_eq bs names
  | closer :: bs, [] => rfl
  | closer :: bs, _ :: names => by
      rw [nestAll_cons, nest, Option.bind_some, nestAll_eq bs names]
      simp [deficit, unmatched]
  | opener name :: bs, names => by
      have bound : deficit bs ≤ (name :: names).length ↔ deficit bs - 1 ≤ names.length := by
        rw [List.length_cons]
        omega
      rw [nestAll_cons, nest, Option.bind_some, nestAll_eq bs (name :: names), unmatched, deficit,
        if_congr bound rfl rfl]
      by_cases covered : Covered bs
      · simp [covered, covered_iff.1 covered]
      · obtain ⟨k, some⟩ := Nat.exists_eq_succ_of_ne_zero fun e => covered (covered_iff.2 e)
        simp [covered, some]

/-- On an empty stack, the words that nest are the covered ones. -/
theorem nestAll_nil_eq_some_iff {names : List String} :
    nestAll [] bs = some names ↔ Covered bs ∧ names = (unmatched bs).reverse := by
  rw [nestAll_eq, covered_iff]
  by_cases none : deficit bs = 0
  · simp [none, eq_comm]
  · simp [none]

/-- A word is balanced if it is covered and every opener is matched. -/
theorem balanced_iff : Balanced bs ↔ Covered bs ∧ unmatched bs = [] := by
  refine and_congr_right fun covered => ?_
  have length := length_unmatched bs
  rw [covered_iff.1 covered] at length
  rw [← List.length_eq_zero_iff]
  omega

/-- Of a covered word, the openers that stay unmatched are those more than there are closers. -/
theorem length_unmatched_of_covered (h : Covered bs) :
    (unmatched bs).length = openers bs - closers bs := by
  have length := length_unmatched bs
  rw [covered_iff.1 h] at length
  omega

/-- A closer after a balanced word is one too many. -/
theorem not_covered_concat (h : Balanced bs) : ¬ Covered (bs ++ [closer]) := by
  intro covered
  have whole := covered (bs ++ [closer]) [] (List.append_nil _).symm
  have closes : closers (bs ++ [closer]) = closers bs + 1 := List.countP_append
  have opens : openers (bs ++ [closer]) = openers bs := List.countP_append
  have equal := h.2
  omega

/-! ## Levels -/

/-- The number of open containers after a brace. -/
def level : Nat → Brace → Option Nat
  | n, neutral => some n
  | n, opener _ => some (n + 1)
  | n + 1, closer => some n
  | 0, closer => none

/-- The number of open containers after a word. -/
def levels (n : Nat) (bs : List Brace) : Option Nat := bs.foldlM level n

theorem levels_append (n : Nat) (xs ys : List Brace) :
    levels n (xs ++ ys) = (levels n xs).bind fun m => levels m ys := List.foldlM_append

theorem levels_cons (n : Nat) (b : Brace) (bs : List Brace) :
    levels n (b :: bs) = (level n b).bind fun m => levels m bs := List.foldlM_cons

theorem map_length_nest : ∀ (names : List String) (b : Brace),
    (nest names b).map List.length = level names.length b
  | _, neutral | _, opener _ | _ :: _, closer | [], closer => rfl

/-- **Levels count the names that nesting keeps.** -/
theorem map_length_nestAll (names : List String) (bs : List Brace) :
    (nestAll names bs).map List.length = levels names.length bs := by
  induction bs generalizing names with
  | nil => rfl
  | cons b bs ih =>
    rw [nestAll_cons, levels_cons, ← map_length_nest]
    cases nest names b with
    | none => rfl
    | some names => exact ih names

/-- From no open container, a covered word leads to as many as it has openers more than closers. -/
theorem levels_zero_eq_some_iff :
    levels 0 bs = some n ↔ Covered bs ∧ n = openers bs - closers bs := by
  have counted : (nestAll [] bs).map List.length = levels 0 bs := map_length_nestAll [] bs
  rw [← counted, Option.map_eq_some_iff]
  constructor
  · rintro ⟨names, nested, rfl⟩
    obtain ⟨covered, rfl⟩ := nestAll_nil_eq_some_iff.1 nested
    exact ⟨covered, by rw [List.length_reverse, length_unmatched_of_covered covered]⟩
  · rintro ⟨covered, rfl⟩
    exact ⟨_, nestAll_nil_eq_some_iff.2 ⟨covered, rfl⟩,
      by rw [List.length_reverse, length_unmatched_of_covered covered]⟩

/-! ## Words that are alike -/

/-- **Alike words** lead from every level to the same. -/
def Alike (xs ys : List Brace) : Prop := ∀ n, levels n xs = levels n ys

namespace Alike

variable {xs ys xs' ys' : List Brace}

@[refl] theorem refl (xs : List Brace) : Alike xs xs := fun _ => rfl

theorem symm (h : Alike xs ys) : Alike ys xs := fun n => (h n).symm

theorem trans {zs : List Brace} (h : Alike xs ys) (h' : Alike ys zs) : Alike xs zs :=
  fun n => (h n).trans (h' n)

theorem append (h : Alike xs ys) (h' : Alike xs' ys') : Alike (xs ++ xs') (ys ++ ys') := fun n => by
  simp only [levels_append, h n, h' _]

theorem cons (b : Brace) (h : Alike xs ys) : Alike (b :: xs) (b :: ys) := (refl [b]).append h

/-- Names do not matter. -/
theorem opener (name other : String) (h : Alike xs ys) :
    Alike (.opener name :: xs) (.opener other :: ys) := fun n => h (n + 1)

/-- Neutral words do not count. -/
theorem neutral (h : ∀ b ∈ xs, b = .neutral) : Alike xs [] := fun n => by
  induction xs with
  | nil => rfl
  | cons b xs ih =>
    rw [h b (by simp)]
    exact ih fun c hc => h c (List.mem_cons_of_mem b hc)

/-- An opener and the closer after it do not count. -/
theorem pair (name : String) : Alike [.opener name, .closer] [] := fun _ => rfl

theorem covered_iff (h : Alike xs ys) : Covered xs ↔ Covered ys := by
  have covered : ∀ bs : List Brace, Covered bs ↔ ∃ n, levels 0 bs = some n := fun bs => by
    simp only [levels_zero_eq_some_iff, exists_and_left, exists_eq, and_true]
  rw [covered, covered, h 0]

theorem balanced_iff (h : Alike xs ys) : Balanced xs ↔ Balanced ys := by
  have balanced : ∀ bs : List Brace, Balanced bs ↔ levels 0 bs = some 0 := fun bs => by
    rw [levels_zero_eq_some_iff, Balanced]
    refine and_congr_right fun covered => ?_
    have bound : closers bs ≤ openers bs := covered bs [] (List.append_nil bs).symm
    omega
  rw [balanced, balanced, h 0]

/-- Covered words that are alike have as many openers more than closers. -/
theorem openers_sub_closers (h : Alike xs ys) (covered : Covered xs) :
    openers xs - closers xs = openers ys - closers ys := by
  have same := (h 0).symm.trans (levels_zero_eq_some_iff.2 ⟨covered, rfl⟩)
  exact (levels_zero_eq_some_iff.1 same).2

end Alike

end Brace

end ProtoSchema
