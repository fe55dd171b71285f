import Mathlib.Data.List.Basic
import ProtoSchema.Text.Numeral

/-!
# Proofs/Text/Numeral — decimal texts are read back

A sign is read alike in front of all numerals (`exists_signed`).  The decimal text of an integer is
a marked numeral of base ten, so reading it gives the integer again (`readInt_toString`) as long as
it has no more digits than a numeral may have.
-/

namespace ProtoSchema.Text

/-! ## Digits -/

theorem toNat_of_isDigit {c : Char} (h : c.isDigit = true) : 48 ≤ c.toNat ∧ c.toNat ≤ 57 := by
  simp only [Char.isDigit, Bool.and_eq_true, decide_eq_true_eq, ge_iff_le,
    UInt32.le_iff_toNat_le] at h
  exact h

theorem isPadding_of_isDigit {c : Char} (h : c.isDigit = true) : isPadding c = false := by
  have := toNat_of_isDigit h
  simp only [isPadding, isBlank, Bool.and_eq_false_iff, Bool.or_eq_false_iff,
    decide_eq_false_iff_not]
  omega

theorem digitIn_ten {c : Char} (h : c.isDigit = true) :
    digitIn 10 c = some (c.toNat - '0'.toNat) := by
  have := toNat_of_isDigit h
  have small : c.toNat - 48 < 10 := by omega
  simp [digitIn, digitValue, h, small]

theorem mapM_digitIn_ten :
    ∀ {cs : List Char}, (∀ c ∈ cs, c.isDigit = true) →
      cs.mapM (digitIn 10) = some (cs.map fun c => c.toNat - '0'.toNat)
  | [], _ => rfl
  | c :: cs, h => by
      rw [List.mapM_cons, digitIn_ten (h c (by simp)),
        mapM_digitIn_ten fun d hd => h d (List.mem_cons_of_mem _ hd)]
      rfl

theorem ofDigits_ten (cs : List Char) :
    ofDigits 10 (cs.map fun c => c.toNat - '0'.toNat) = Nat.ofDigitChars 10 cs 0 := by
  simp only [ofDigits, Nat.ofDigitChars, List.foldl_map, Nat.mul_comm]

/-! ## Groups of digits -/

/-- Groups of digits with an underscore between neighbours. -/
def joinGroups (groups : List (List Char)) : List Char := List.intercalate ['_'] groups

/-- **Groups of digits are read as if no underscore stood between them.** -/
theorem digits_joinGroups {groups : List (List Char)} (ne : groups ≠ [])
    (h : ∀ g ∈ groups, g ≠ [] ∧ ∀ c ∈ g, c.isDigit = true) :
    digits 10 (joinGroups groups) = some (groups.flatten.map fun c => c.toNat - '0'.toNat) := by
  have free : ∀ g ∈ groups, '_' ∉ g := fun g hg mem => absurd ((h g hg).2 _ mem) (by decide)
  have split : (joinGroups groups).splitOn '_' = groups := List.splitOn_intercalate '_' free ne
  have full : groups.any List.isEmpty = false := by simpa using fun g hg => (h g hg).1
  rw [digits, split]
  simp only [full, Bool.false_eq_true, if_false]
  refine mapM_digitIn_ten fun c hc => ?_
  obtain ⟨g, hg, mem⟩ := List.mem_flatten.1 hc
  exact (h g hg).2 c mem

/-! ## Decimal texts -/

/-- The decimal text of a natural number, as characters. -/
abbrev decimal (n : Nat) : List Char := Nat.toDigits 10 n

theorem isDigit_of_mem_decimal {n : Nat} {c : Char} (h : c ∈ decimal n) : c.isDigit = true :=
  Nat.isDigit_of_mem_toDigits (by decide) (by decide) h

theorem digits_decimal (n : Nat) :
    digits 10 (decimal n) = some ((decimal n).map fun c => c.toNat - '0'.toNat) := by
  have single : ∀ g ∈ [decimal n], g ≠ [] ∧ ∀ c ∈ g, c.isDigit = true :=
    List.forall_mem_singleton.2 ⟨Nat.toDigits_ne_nil, fun _ => isDigit_of_mem_decimal⟩
  simpa [joinGroups] using digits_joinGroups (List.cons_ne_nil _ _) single

theorem decimalNat_decimal {n : Nat} (h : (decimal n).length ≤ digitLimit) :
    decimalNat (decimal n) = some n := by
  simp only [decimalNat, decimalDigits, digits_decimal, Option.filter, List.length_map, h,
    decide_true, if_true, Option.map_some, ofDigits_ten, Nat.ofDigitChars_ten_toDigits]

/-- A decimal text starts with a zero only if it is that of zero. -/
theorem head_decimal : ∀ {n : Nat}, (decimal n).head? = some '0' → n = 0 := by
  intro n
  induction n using Nat.strongRecOn with
  | ind n ih =>
    intro h
    by_cases small : n < 10
    · rw [decimal, Nat.toDigits_of_lt_base small] at h
      have zero : n.digitChar = '0' := Option.some.inj h
      have := Nat.toNat_digitChar_sub_48_of_lt_ten small
      rw [zero] at this
      exact this.symm
    · rw [decimal, Nat.toDigits_of_base_le (by decide) (by omega),
        List.head?_append_of_ne_nil _ Nat.toDigits_ne_nil] at h
      have := ih (n / 10) (by omega) h
      omega

theorem plainNat_decimal {n : Nat} (h : (decimal n).length ≤ digitLimit) :
    plainNat (decimal n) = some n := by
  have read : (decimalDigits (decimal n)).map (ofDigits 10) = some n := decimalNat_decimal h
  rw [plainNat, read]
  by_cases zero : (decimal n).head? = some '0'
  · simp [Option.filter, head_decimal zero]
  · simp [Option.filter, zero]

theorem markedBase_of_isDigit {c : Char} (h : c.isDigit = true) : markedBase c = none := by
  have ne : ∀ d : Char, d.isDigit = false → c ≠ d := fun d hd e => by simp [e ▸ h] at hd
  simp [markedBase, ne 'x' (by decide), ne 'X' (by decide), ne 'o' (by decide), ne 'O' (by decide),
    ne 'b' (by decide), ne 'B' (by decide)]

theorem markedNat_decimal {n : Nat} (h : (decimal n).length ≤ digitLimit) :
    markedNat (decimal n) = some n := by
  unfold markedNat
  split
  case h_1 c cs eq =>
    have digit : c.isDigit = true := isDigit_of_mem_decimal (n := n) (by rw [eq]; simp)
    rw [markedBase_of_isDigit digit, ← eq]
    exact plainNat_decimal h
  case h_2 => exact plainNat_decimal h

/-! ## Signs -/

/-- The sign in front of a numeral. -/
inductive Sign
  | none
  | plus
  | minus
deriving Repr, DecidableEq

/-- The sign as it is written. -/
def Sign.chars : Sign → List Char
  | .none => []
  | .plus => ['+']
  | .minus => ['-']

/-- The number with the sign. -/
def Sign.apply : Sign → Nat → Int
  | .minus, n => -(n : Int)
  | _, n => (n : Int)

section Signed

variable {cs : List Char}

theorem signed_minus (f : List Char → Option Nat) (cs : List Char) :
    signed f ('-' :: cs) = (f cs).map Sign.minus.apply := by
  rw [signed]
  cases f cs <;> rfl

theorem signed_unsigned (f : List Char → Option Nat) (minus : cs.head? ≠ some '-')
    (plus : cs.head? ≠ some '+') : signed f cs = (f cs).map Sign.none.apply := by
  unfold signed
  split
  · exact absurd rfl minus
  · exact absurd rfl plus
  · rfl

theorem signed_append (f : List Char → Option Nat) (sign : Sign) (minus : cs.head? ≠ some '-')
    (plus : cs.head? ≠ some '+') :
    signed f (sign.chars ++ cs) = (f cs).map sign.apply := by
  cases sign with
  | none => exact signed_unsigned f minus plus
  | plus => rfl
  | minus => exact signed_minus f cs

/-- **A sign is read alike in front of all numerals.** -/
theorem exists_signed (cs : List Char) :
    ∃ (sign : Sign) (rest : List Char), ∀ f, signed f cs = (f rest).map sign.apply := by
  by_cases minus : cs.head? = some '-'
  · obtain ⟨rest, rfl⟩ := List.head?_eq_some_iff.1 minus
    exact ⟨.minus, rest, fun f => signed_minus f rest⟩
  by_cases plus : cs.head? = some '+'
  · obtain ⟨rest, rfl⟩ := List.head?_eq_some_iff.1 plus
    exact ⟨.plus, rest, fun _ => rfl⟩
  · exact ⟨.none, cs, fun f => signed_unsigned f minus plus⟩

end Signed

/-- With no blanks around it, a numeral is only put in ASCII digits. -/
theorem bare_of_no_padding {cs : List Char} (h : ∀ c ∈ cs, isPadding c = false) :
    bare cs = cs.map toAsciiDigit := by
  have strip : ∀ {l : List Char}, (∀ c ∈ l, isPadding c = false) → l.dropWhile isPadding = l := by
    intro l hl
    cases l with
    | nil => rfl
    | cons c l => rw [List.dropWhile_cons_of_neg (by simp [hl c])]
  rw [bare, strip h, strip fun c hc => h c (by simpa using hc), List.reverse_reverse]

theorem map_toAsciiDigit {cs : List Char} (h : ∀ c ∈ cs, c.toNat < 0x80) :
    cs.map toAsciiDigit = cs :=
  (List.map_congr_left fun c hc => toAsciiDigit_of_ascii (h c hc)).trans (List.map_id _)

/-- A sign stays as it is in front of a numeral. -/
theorem Sign.bare_append (sign : Sign) {cs : List Char} (h : ∀ c ∈ cs, isPadding c = false) :
    bare (sign.chars ++ cs) = sign.chars ++ cs.map toAsciiDigit := by
  have unpadded : ∀ c ∈ sign.chars, isPadding c = false := by
    cases sign with
    | none => exact List.forall_mem_nil _
    | plus | minus => exact List.forall_mem_singleton.2 (by decide)
  have ascii : sign.chars.map toAsciiDigit = sign.chars := by cases sign <;> decide
  rw [bare_of_no_padding (List.forall_mem_append.2 ⟨unpadded, h⟩), List.map_append, ascii]

theorem map_toAsciiDigit_decimal (n : Nat) : (decimal n).map toAsciiDigit = decimal n :=
  map_toAsciiDigit fun c hc => by
    have := toNat_of_isDigit (isDigit_of_mem_decimal hc)
    omega

theorem readMarked_decimal (sign : Sign) {n : Nat} (h : (decimal n).length ≤ digitLimit) :
    readMarked (sign.chars ++ decimal n) = some (sign.apply n) := by
  have digit := fun c (hc : c ∈ decimal n) => isDigit_of_mem_decimal hc
  have unsigned : ∀ s, s.isDigit = false → (decimal n).head? ≠ some s := fun s other first =>
    nomatch other.symm.trans (digit s (List.mem_of_head? first))
  rw [readMarked, sign.bare_append fun c hc => isPadding_of_isDigit (digit c hc),
    map_toAsciiDigit_decimal, signed_append _ sign (unsigned '-' (by decide))
      (unsigned '+' (by decide)), markedNat_decimal h, Option.map_some]

/-! ## Integers -/

/-- The number of decimal digits of an integer. -/
def digitCount (n : Int) : Nat := (decimal n.natAbs).length

/-- **An integer is printed if it has no more digits than a numeral may have.** -/
theorem natAbs_lt_numeralBound_iff {n : Int} :
    n.natAbs < numeralBound ↔ digitCount n ≤ digitLimit := by
  have pos : 0 < digitLimit := by decide
  unfold numeralBound digitCount
  -- The bound itself is too large to be computed here.
  generalize digitLimit = limit at pos ⊢
  exact (Nat.length_toDigits_le_iff (by decide) pos).symm

theorem toList_toString_ofNat (n : Nat) : (toString (n : Int)).toList = decimal n :=
  Nat.toList_repr

theorem toList_toString_negSucc (n : Nat) :
    (toString (Int.negSucc n)).toList = '-' :: decimal (n + 1) := by
  change ("-" ++ (n + 1).repr).toList = _
  rw [String.toList_append, Nat.toList_repr]
  rfl

/-- **The decimal text of an integer is read back**, within the limit of digits. -/
theorem readInt_toString {n : Int} (h : digitCount n ≤ digitLimit) :
    readInt (toString n) = some n := by
  have marked : readMarked (toString n).toList = some n := by
    cases n with
    | ofNat n =>
      rw [Int.ofNat_eq_natCast, toList_toString_ofNat]
      exact readMarked_decimal .none h
    | negSucc n =>
      rw [toList_toString_negSucc]
      exact readMarked_decimal .minus h
  rw [readInt, marked]
  rfl

end ProtoSchema.Text
