import ProtoSchema.Proofs.Text.Numeral
import ProtoSchema.Proofs.Text.Words

/-!
# Proofs/Text/NumeralForms — an integer has one value in all its forms

A mark names a letter that is no decimal digit, so a numeral that is read with and without its mark
is decimal, and both readings agree (`readMarked_unique`).  Zeros in front of a decimal text have no
value (`DecimalText.value_withZeros`), and a number is read back from its text in each base that a
mark names (`readMarked_text`).
-/

namespace ProtoSchema.Text

/-! ## Two readings, one value -/

theorem isSome_of_mapM {α β : Type} {f : α → Option β} :
    ∀ {l : List α} {ys : List β}, l.mapM f = some ys → ∀ a ∈ l, (f a).isSome
  | [], _, _, _, h => absurd h List.not_mem_nil
  | a :: l, ys, h, b, hb => by
      rw [List.mapM_cons] at h
      obtain ⟨y, first, h⟩ := Option.bind_eq_some_iff.1 h
      obtain ⟨zs, others, -⟩ := Option.bind_eq_some_iff.1 h
      rcases List.mem_cons.1 hb with rfl | hb
      · rw [first]
        rfl
      · exact isSome_of_mapM others b hb

/-- A numeral is made of digits of its base and underscores. -/
theorem isSome_of_digits {base : Nat} {cs : List Char} {ds : List Nat}
    (h : digits base cs = some ds) {c : Char} (mem : c ∈ cs) (ne : c ≠ '_') :
    (digitIn base c).isSome := by
  rw [digits] at h
  split_ifs at h
  exact isSome_of_mapM h c (mem_flatten_splitOn mem ne)

theorem decimalNat_of_plainNat {cs : List Char} {n : Nat} (h : plainNat cs = some n) :
    decimalNat cs = some n := Option.eq_some_of_filter_eq_some h

/-- The letter of a mark is no decimal digit. -/
theorem digitIn_ten_of_markedBase {c : Char} {base : Nat} (h : markedBase c = some base) :
    digitIn 10 c = none ∧ c ≠ '_' := by
  have letter : c = 'x' ∨ c = 'X' ∨ c = 'o' ∨ c = 'O' ∨ c = 'b' ∨ c = 'B' := by
    by_contra other
    simp only [not_or] at other
    simp [markedBase, other] at h
  rcases letter with rfl | rfl | rfl | rfl | rfl | rfl <;> decide

/-- **A numeral that is read both ways has one value**: with a mark it is no decimal numeral. -/
theorem markedNat_unique {cs : List Char} {m n : Nat} (hm : markedNat cs = some m)
    (hn : decimalNat cs = some n) : m = n := by
  have plain (h : plainNat cs = some m) : m = n :=
    Option.some.inj ((decimalNat_of_plainNat h).symm.trans hn)
  unfold markedNat at hm
  split at hm
  case h_1 c cs =>
    cases mark : markedBase c with
    | none =>
      rw [mark] at hm
      exact plain hm
    | some base =>
      obtain ⟨other, ne⟩ := digitIn_ten_of_markedBase mark
      obtain ⟨ds, read, -⟩ := Option.map_eq_some_iff.1 hn
      have digit := isSome_of_digits (Option.eq_some_of_filter_eq_some read) (c := c) (by simp) ne
      rw [other] at digit
      exact nomatch digit
  case h_2 => exact plain hm

/-- **An integer that is read both ways has one value.** -/
theorem readMarked_unique {cs : List Char} {m n : Int} (hm : readMarked cs = some m)
    (hn : readDecimal cs = some n) : m = n := by
  obtain ⟨sign, rest, read⟩ := exists_signed (bare cs)
  rw [readMarked, read] at hm
  rw [readDecimal, read] at hn
  obtain ⟨a, ha, rfl⟩ := Option.map_eq_some_iff.1 hm
  obtain ⟨b, hb, rfl⟩ := Option.map_eq_some_iff.1 hn
  rw [markedNat_unique ha hb]

theorem readInt_of_readDecimal {s : String} {n : Int} (h : readDecimal s.toList = some n) :
    readInt s = some n := by
  rw [readInt]
  cases marked : readMarked s.toList with
  | none => exact h
  | some m => exact congrArg some (readMarked_unique marked h)

/-- **It does not matter which reading is tried first.** -/
theorem readInt_eq_orElse (s : String) :
    readInt s = (readDecimal s.toList <|> readMarked s.toList) := by
  cases decimal : readDecimal s.toList with
  | none =>
    rw [readInt, decimal]
    cases readMarked s.toList <;> rfl
  | some n => exact readInt_of_readDecimal decimal

/-! ## Decimal texts -/

/-- A decimal digit of any script. -/
def isDecimalDigit (c : Char) : Bool := (toAsciiDigit c).isDigit

theorem isDecimalDigit_of_isDigit {c : Char} (h : c.isDigit = true) : isDecimalDigit c = true := by
  have small : c.toNat < 0x80 := by
    have := toNat_of_isDigit h
    omega
  rwa [isDecimalDigit, toAsciiDigit_of_ascii small]

/-- A blank is no decimal digit. -/
theorem isDecimalDigit_of_isBlank {c : Char} (h : isBlank c = true) : isDecimalDigit c = false := by
  have table : ∀ n ∈ blankCodes, isDecimalDigit (Char.ofNat n) = false := by decide +kernel
  have entry := table _ (toNat_mem_blankCodes h)
  rwa [Char.ofNat_toNat] at entry

theorem isPadding_of_isDecimalDigit {c : Char} (h : isDecimalDigit c = true) :
    isPadding c = false := by
  have blank : isBlank c = false := Bool.eq_false_iff.2 fun blank =>
    nomatch h.symm.trans (isDecimalDigit_of_isBlank blank)
  rw [isPadding, blank, Bool.false_and]

/-- **A decimal text without a sign**: groups of decimal digits of any script, with an underscore
between neighbours. -/
structure DecimalText where
  groups : List (List Char)
  ne_nil : groups ≠ []
  digit : ∀ g ∈ groups, g ≠ [] ∧ ∀ c ∈ g, isDecimalDigit c = true

namespace DecimalText

/-- The text that a number is printed as. -/
def ofNat (n : Nat) : DecimalText where
  groups := [decimal n]
  ne_nil := List.cons_ne_nil _ _
  digit := List.forall_mem_singleton.2 ⟨Nat.toDigits_ne_nil, fun _ hc =>
    isDecimalDigit_of_isDigit (isDigit_of_mem_decimal hc)⟩

/-- The text as it is written. -/
def chars (t : DecimalText) : List Char := joinGroups t.groups

/-- The number of its digits. -/
def size (t : DecimalText) : Nat := t.groups.flatten.length

/-- The number that it stands for. -/
def value (t : DecimalText) : Nat := Nat.ofDigitChars 10 (t.groups.flatten.map toAsciiDigit) 0

variable {t : DecimalText}

theorem chars_ofNat (n : Nat) : (ofNat n).chars = decimal n := by
  rw [chars, joinGroups, ofNat, List.intercalate_singleton]

theorem value_ofNat (n : Nat) : (ofNat n).value = n := by
  have flat : (ofNat n).groups.flatten = decimal n := List.append_nil _
  rw [value, flat, map_toAsciiDigit_decimal, Nat.ofDigitChars_ten_toDigits]

/-- **A decimal text is read in base ten**, within the limit of digits. -/
theorem readDecimal_chars (sign : Sign) (short : t.size ≤ digitLimit) :
    readDecimal (sign.chars ++ t.chars) = some (sign.apply t.value) := by
  have unpadded : ∀ c ∈ t.chars, isPadding c = false :=
    forall_mem_intercalate (List.forall_mem_singleton.2 (by decide)) fun g hg c hc =>
      isPadding_of_isDecimalDigit ((t.digit g hg).2 c hc)
  have digit : ∀ g ∈ t.groups.map (List.map toAsciiDigit), g ≠ [] ∧ ∀ c ∈ g, c.isDigit = true := by
    refine List.forall_mem_map.2 fun g hg => ⟨by simpa using (t.digit g hg).1, ?_⟩
    exact List.forall_mem_map.2 (t.digit g hg).2
  have ascii : t.chars.map toAsciiDigit = joinGroups (t.groups.map (List.map toAsciiDigit)) :=
    map_intercalate toAsciiDigit ['_'] t.groups
  have unsigned : ∀ s, s.isDigit = false → s ≠ '_' → (t.chars.map toAsciiDigit).head? ≠ some s := by
    intro s other ne first
    have all : ∀ c ∈ t.chars.map toAsciiDigit, c.isDigit = true ∨ c = '_' := by
      rw [ascii]
      exact forall_mem_intercalate (List.forall_mem_singleton.2 (.inr rfl)) fun g hg c hc =>
        .inl ((digit g hg).2 c hc)
    rcases all s (List.mem_of_head? first) with mem | mem
    · exact nomatch mem.symm.trans other
    · exact ne mem
  have value : decimalNat (t.chars.map toAsciiDigit) = some t.value := by
    have ne : t.groups.map (List.map toAsciiDigit) ≠ [] := by simpa using t.ne_nil
    rw [size] at short
    rw [ascii, decimalNat, decimalDigits, digits_joinGroups ne digit, ← List.map_flatten,
      Option.filter, if_pos (by simpa only [List.length_map, decide_eq_true_eq] using short),
      Option.map_some, ofDigits_ten]
    rfl
  rw [readDecimal, sign.bare_append unpadded,
    signed_append _ sign (unsigned '-' (by decide) (by decide))
      (unsigned '+' (by decide) (by decide)), value, Option.map_some]

section Zeros

variable (t : DecimalText) {zeros : List Char} (hz : ∀ z ∈ zeros, toAsciiDigit z = '0')

/-- The text with zeros in front of its first group. -/
def withZeros : DecimalText where
  groups := t.groups.modifyHead (zeros ++ ·)
  ne_nil := by simpa using t.ne_nil
  digit := by
    obtain ⟨groups, ne, digit⟩ := t
    obtain ⟨g, groups, rfl⟩ := List.exists_cons_of_ne_nil ne
    obtain ⟨⟨full, first⟩, others⟩ := List.forall_mem_cons.1 digit
    have zero : ∀ z ∈ zeros, isDecimalDigit z = true := fun z mem => by
      rw [isDecimalDigit, hz z mem]
      decide
    exact List.forall_mem_cons.2 ⟨⟨List.append_ne_nil_of_right_ne_nil _ full,
      List.forall_mem_append.2 ⟨zero, first⟩⟩, others⟩

theorem flatten_withZeros : (t.withZeros hz).groups.flatten = zeros ++ t.groups.flatten := by
  obtain ⟨groups, ne, digit⟩ := t
  obtain ⟨g, groups, rfl⟩ := List.exists_cons_of_ne_nil ne
  exact List.append_assoc zeros g groups.flatten

theorem chars_withZeros : (t.withZeros hz).chars = zeros ++ t.chars := by
  obtain ⟨groups, ne, digit⟩ := t
  obtain ⟨g, groups, rfl⟩ := List.exists_cons_of_ne_nil ne
  cases groups <;> simp [withZeros, chars, joinGroups]

theorem size_withZeros : (t.withZeros hz).size = zeros.length + t.size := by
  rw [size, flatten_withZeros, List.length_append, size]

/-- **Zeros in front have no value.** -/
theorem value_withZeros : (t.withZeros hz).value = t.value := by
  have ascii : zeros.map toAsciiDigit = List.replicate zeros.length '0' := by
    simpa [List.eq_replicate_iff] using hz
  rw [value, flatten_withZeros, List.map_append, ascii, Nat.ofDigitChars_append,
    Nat.ofDigitChars_replicate_zero]
  rfl

end Zeros

end DecimalText

/-! ## Numerals with a mark -/

/-- The bases that a numeral can name. -/
inductive Radix
  | hexadecimal
  | octal
  | binary
deriving Repr, DecidableEq

def Radix.base : Radix → Nat
  | .hexadecimal => 16
  | .octal => 8
  | .binary => 2

def Radix.mark : Radix → Char
  | .hexadecimal => 'x'
  | .octal => 'o'
  | .binary => 'b'

/-- **The text of a number in a base that it names**, in lower case. -/
def Radix.text (r : Radix) (n : Nat) : List Char := '0' :: r.mark :: Nat.toDigits r.base n

/-- What holds of a character and itself, and of the lower case of each ASCII character and that
character, holds of the lower case of any character and that character. -/
theorem forall_toLower {p : Char → Char → Prop} (same : ∀ c, p c c)
    (ascii : ∀ n < 128, p (Char.ofNat n).toLower (Char.ofNat n)) (c : Char) : p c.toLower c := by
  by_cases small : c.toNat < 128
  · have entry := ascii _ small
    rwa [Char.ofNat_toNat] at entry
  · have other : c.toLower = c := by
      refine dif_neg fun upper => small ?_
      have : c.toNat ≤ 90 := upper.2
      omega
    rw [other]
    exact same c

theorem digitValue_toLower (c : Char) : digitValue c.toLower = digitValue c :=
  forall_toLower (p := fun d c => digitValue d = digitValue c) (fun _ => rfl) (by decide) c

theorem markedBase_toLower (c : Char) : markedBase c.toLower = markedBase c :=
  forall_toLower (p := fun d c => markedBase d = markedBase c) (fun _ => rfl) (by decide) c

theorem eq_zero_of_toLower {c : Char} (h : c.toLower = '0') : c = '0' :=
  forall_toLower (p := fun d c => d = '0' → c = '0') (fun _ => id) (by decide) c h

theorem digitIn_toLower (base : Nat) (c : Char) : digitIn base c.toLower = digitIn base c := by
  rw [digitIn, digitValue_toLower, digitIn]

theorem digitIn_digitChar {base n : Nat} (h : n < base) (small : base ≤ 16) :
    digitIn base n.digitChar = some n := by
  have table : ∀ m < 16, digitValue m.digitChar = some m := by decide
  rw [digitIn, table n (by omega)]
  simp [Option.filter, h]

/-- **The digits of a number in a base are read back.** -/
theorem mapM_digitIn_toDigits {base : Nat} (one : 1 < base) (small : base ≤ 16) (n : Nat) :
    ((Nat.toDigits base n).mapM (digitIn base)).map (ofDigits base) = some n := by
  induction n using Nat.strongRecOn with
  | ind n ih =>
    by_cases single : n < base
    · rw [Nat.toDigits_of_lt_base single, List.mapM_cons, digitIn_digitChar single small]
      simp [ofDigits]
    · have less : n / base < n := Nat.div_lt_self (by omega) one
      obtain ⟨ds, read, value⟩ := Option.map_eq_some_iff.1 (ih (n / base) less)
      have last := digitIn_digitChar (Nat.mod_lt n (by omega : base > 0)) small
      rw [Nat.toDigits_of_base_le one (by omega), List.mapM_append, read, List.mapM_cons, last]
      simp only [ofDigits] at value
      simp [ofDigits, value, Nat.div_add_mod']

theorem toNat_of_digitValue {c : Char} (h : (digitValue c).isSome) :
    (48 ≤ c.toNat ∧ c.toNat ≤ 57) ∨ (65 ≤ c.toNat ∧ c.toNat ≤ 90)
      ∨ (97 ≤ c.toNat ∧ c.toNat ≤ 122) := by
  rw [digitValue] at h
  split_ifs at h with digit lower upper
  · exact .inl (toNat_of_isDigit digit)
  · rw [Bool.and_eq_true, decide_eq_true_eq, decide_eq_true_eq] at lower
    exact .inr (.inr lower)
  · rw [Bool.and_eq_true, decide_eq_true_eq, decide_eq_true_eq] at upper
    exact .inr (.inl upper)
  · exact absurd h Bool.false_ne_true

/-- A digit or letter is neither a blank nor an underscore. -/
theorem of_digitValue {c : Char} (h : (digitValue c).isSome) :
    c.toNat < 0x80 ∧ isPadding c = false ∧ c ≠ '_' := by
  have range := toNat_of_digitValue h
  refine ⟨by omega, ?_, ?_⟩
  · simp only [isPadding, isBlank, Bool.and_eq_false_iff, Bool.or_eq_false_iff,
      decide_eq_false_iff_not]
    omega
  · rintro rfl
    exact absurd h (by decide)

/-- **The digits behind a mark are read in its base.** -/
theorem markedNat_mark {mark : Char} {base n : Nat} {cs : List Char}
    (named : markedBase mark = some base) (ne : cs ≠ [])
    (digit : ∀ c ∈ cs, (digitValue c).isSome)
    (read : (cs.mapM (digitIn base)).map (ofDigits base) = some n) :
    markedNat ('0' :: mark :: cs) = some n := by
  have free : '_' ∉ cs := fun mem => (of_digitValue (digit _ mem)).2.2 rfl
  have stays : dropUnderscore cs = cs := by
    unfold dropUnderscore
    split
    · exact absurd List.mem_cons_self free
    · rfl
  have whole : digits base cs = cs.mapM (digitIn base) := by
    rw [digits, List.splitOn_eq_singleton free]
    simp [ne]
  rw [markedNat, named]
  simp only [stays, whole, read]

/-- **A number is read back in each base that it can name**, whatever the case of its letters. -/
theorem readMarked_text (sign : Sign) (r : Radix) (n : Nat) {cs : List Char}
    (h : cs.map Char.toLower = r.text n) : readMarked (sign.chars ++ cs) = some (sign.apply n) := by
  obtain ⟨zero, behind, rfl, first, rest⟩ := List.map_eq_cons_iff.1 h
  obtain ⟨mark, ds, rfl, second, digits⟩ := List.map_eq_cons_iff.1 rest
  obtain rfl := eq_zero_of_toLower first
  have named : markedBase mark = some r.base := by
    rw [← markedBase_toLower, second]
    cases r <;> rfl
  have bounds : 1 < r.base ∧ r.base ≤ 16 := by cases r <;> decide
  have read : (ds.mapM (digitIn r.base)).map (ofDigits r.base) = some n := by
    have lowered : digitIn r.base ∘ Char.toLower = digitIn r.base :=
      funext (digitIn_toLower r.base)
    have back := mapM_digitIn_toDigits bounds.1 bounds.2 n
    rwa [← digits, List.mapM_map, lowered] at back
  have digit : ∀ d ∈ ds, (digitValue d).isSome := fun d hd => by
    obtain ⟨values, valued, -⟩ := Option.map_eq_some_iff.1 read
    exact Option.isSome_of_isSome_filter _ _ (isSome_of_mapM valued d hd)
  have letter : (digitValue mark).isSome := by
    rw [← digitValue_toLower, second]
    cases r <;> decide
  have all : ∀ c ∈ '0' :: mark :: ds, (digitValue c).isSome :=
    List.forall_mem_cons.2 ⟨by decide, List.forall_mem_cons.2 ⟨letter, digit⟩⟩
  have ne : ds ≠ [] := by
    rintro rfl
    exact Nat.toDigits_ne_nil digits.symm
  rw [readMarked, sign.bare_append fun c hc => (of_digitValue (all c hc)).2.1,
    map_toAsciiDigit fun c hc => (of_digitValue (all c hc)).1,
    signed_append _ sign (by simp) (by simp), markedNat_mark named ne digit read, Option.map_some]

/-! ## Integers -/

/-- **Integers are read coherently.**  A text that is read both ways has one value, so it does not
matter which reading is tried first.  An integer within the limit of digits is printed, and read
back.  Zeros in front of a decimal text, within the limit, do not change its value.  A number is
read back in each base that it can name, however long it is and whatever the case of its letters. -/
theorem readInt_coherent :
    (∀ cs m n, readMarked cs = some m → readDecimal cs = some n → m = n)
      ∧ (∀ s, readInt s = (readDecimal s.toList <|> readMarked s.toList))
      ∧ (∀ n : Int, digitCount n ≤ digitLimit →
        printInt n = some (toString n) ∧ readInt (toString n) = some n)
      ∧ (∀ (sign : Sign) (zeros : List Char) (t : DecimalText),
        (∀ z ∈ zeros, toAsciiDigit z = '0') → zeros.length + t.size ≤ digitLimit →
          readInt (String.ofList (sign.chars ++ t.chars)) = some (sign.apply t.value)
            ∧ readInt (String.ofList (sign.chars ++ (zeros ++ t.chars)))
              = some (sign.apply t.value))
      ∧ ∀ (sign : Sign) (r : Radix) (n : Nat) (cs : List Char), cs.map Char.toLower = r.text n →
        readInt (String.ofList (sign.chars ++ cs)) = some (sign.apply n) := by
  refine ⟨fun _ _ _ => readMarked_unique, readInt_eq_orElse, fun n short => ?_,
    fun sign zeros t hz short => ⟨?_, ?_⟩, fun sign r n cs h => ?_⟩
  · exact ⟨if_pos (natAbs_lt_numeralBound_iff.2 short), readInt_toString short⟩
  · refine readInt_of_readDecimal ?_
    rw [String.toList_ofList, t.readDecimal_chars sign (by omega)]
  · have more : (t.withZeros hz).size ≤ digitLimit := by rwa [t.size_withZeros hz]
    refine readInt_of_readDecimal ?_
    rw [String.toList_ofList, ← t.chars_withZeros hz, DecimalText.readDecimal_chars sign more,
      t.value_withZeros hz]
  · rw [readInt, String.toList_ofList, readMarked_text sign r n h]
    rfl

/-- An integer in both readings, as it is printed, with zeros up to the limit of digits, and in a
base that it names. -/
theorem readInt_coherent_at_limit :
    readMarked "-4_2".toList = some (-42) ∧ readDecimal "-4_2".toList = some (-42)
      ∧ readInt (toString (-42 : Int)) = some (-42)
      ∧ (List.replicate 4298 '0').length + (DecimalText.ofNat 42).size = digitLimit
      ∧ readInt (String.ofList (Sign.minus.chars ++ (List.replicate 4298 '0' ++ decimal 42)))
        = some (-42)
      ∧ readInt (String.ofList (Sign.minus.chars ++ "0X2a".toList)) = some (-42) := by
  obtain ⟨-, -, printed, behindZeros, named⟩ := readInt_coherent
  have size : (List.replicate 4298 '0').length + (DecimalText.ofNat 42).size = digitLimit := by
    rw [List.length_replicate]
    decide
  have zero : ∀ z ∈ List.replicate 4298 '0', toAsciiDigit z = '0' := fun z hz => by
    rw [List.eq_of_mem_replicate hz]
    decide
  have behind := (behindZeros .minus _ (.ofNat 42) zero size.le).2
  rw [DecimalText.chars_ofNat, DecimalText.value_ofNat] at behind
  exact ⟨by decide, by decide, (printed (-42) (by decide)).2, size, behind,
    named .minus .hexadecimal 42 "0X2a".toList (by decide)⟩

end ProtoSchema.Text
