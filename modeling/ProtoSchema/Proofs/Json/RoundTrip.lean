import Mathlib.Data.List.Forall2
import ProtoSchema.Proofs.Json.Strings
import ProtoSchema.Proofs.Text.Numeral

/-!
# Proofs/Json/RoundTrip — values are read back

The text of a value is read as this value, whatever may follow it in a printed text (`ReadBack`).
The items of a list and the members of an object are taken one by one, so this goes from the parts
to the whole (`readBack_printAt`), and a text that was printed is parsed as what it was printed from
(`parse_print`).  Left out are numbers that are no integers, whose literal may be any text, and
strings with halves of surrogate pairs, for which nothing is printed but replacement characters.
-/

namespace ProtoSchema.Json

open Text

/-- What may follow a value in a printed text. -/
def Stops (rest : List Char) : Prop := ∀ c ∈ rest.head?, c = ',' ∨ c = '\n'

/-- The character is no white space and closes nothing. -/
def IsStart (c : Char) : Prop := isSpace c = false ∧ c ≠ ']' ∧ c ≠ '\x7d'

instance : DecidablePred IsStart := fun _ => inferInstanceAs (Decidable (_ ∧ _))

/-- The text starts as no white space and no closing bracket does. -/
def Starts (t : List Char) : Prop := ∃ c cs, t = c :: cs ∧ IsStart c

/-- **A text of a value**, which is read as this value whatever follows, and takes no more fuel than
it has characters. -/
structure ReadBack (j : Json) (t : List Char) : Prop where
  starts : Starts t
  value : ∀ {rest : List Char} {fuel : Nat}, Stops rest → t.length ≤ fuel →
    readValue fuel (t ++ rest) = .ok (j, rest)

/-- A value is read with some fuel. -/
theorem ReadBack.of_succ {j : Json} {c : Char} {cs : List Char} (start : IsStart c)
    (h : ∀ {rest : List Char} (fuel : Nat), Stops rest → (c :: cs).length ≤ fuel + 1 →
      readValue (fuel + 1) (c :: cs ++ rest) = .ok (j, rest)) :
    ReadBack j (c :: cs) where
  starts := ⟨c, cs, rfl, start⟩
  value {rest fuel} stops short := by
    cases fuel with
    | zero => exact absurd short (Nat.not_succ_le_zero _)
    | succ fuel => exact h fuel stops short

/-! ## Words -/

theorem readBack_null : ReadBack null "null".toList :=
  .of_succ (by decide) fun _ _ _ => rfl

theorem readBack_bool (b : Bool) :
    ReadBack (bool b) (if b then "true".toList else "false".toList) := by
  cases b <;> exact .of_succ (by decide) fun _ _ _ => rfl

/-- A text that starts as no word does is none. -/
theorem literal?_eq_none {c : Char} (h : c ∉ ['n', 't', 'f', 'N', 'I', '-']) (cs : List Char) :
    literal? (c :: cs) = none := by
  have other : ∀ d ∈ ['n', 't', 'f', 'N', 'I', '-'], (d == c) = false := fun d mem =>
    beq_eq_false_iff_ne.2 fun same => h (same ▸ mem)
  simp only [List.forall_mem_cons] at other
  simp [literal?, literals, List.isPrefixOf?, other]

/-! ## Numbers -/

/-- No number goes on in what follows a value. -/
theorem Stops.ends_number {rest : List Char} (h : Stops rest) :
    leadingDigits rest = [] ∧ fraction rest = [] ∧ exponent rest = [] := by
  cases rest with
  | nil => exact ⟨rfl, rfl, rfl⟩
  | cons c cs => rcases h c rfl with rfl | rfl <;> exact ⟨rfl, rfl, rfl⟩

theorem wholeDigits_decimal (n : Nat) {rest : List Char} (stops : Stops rest) :
    wholeDigits (decimal n ++ rest) = decimal n := by
  have digits : leadingDigits (decimal n ++ rest) = decimal n := by
    have none : rest.takeWhile Char.isDigit = [] := stops.ends_number.1
    rw [leadingDigits, List.takeWhile_append_of_pos fun _ => isDigit_of_mem_decimal, none,
      List.append_nil]
  rw [wholeDigits, digits]
  split
  · next ds spelled =>
    obtain rfl := head_decimal (by rw [spelled]; rfl)
    rfl
  · rfl

/-- **A decimal text is read as its number**, within the limit of digits. -/
theorem readNumber_decimal {n : Nat} (short : (decimal n).length ≤ digitLimit) (negative : Bool)
    {rest : List Char} (stops : Stops rest) :
    readNumber negative (decimal n ++ rest)
      = .ok (int (if negative then -(n : Int) else n), rest) := by
  obtain ⟨-, part, power⟩ := stops.ends_number
  have some : (decimal n).isEmpty = false := List.isEmpty_eq_false_iff.2 Nat.toDigits_ne_nil
  simp only [readNumber, wholeDigits_decimal n stops, List.drop_left, part, List.length_nil,
    List.drop_zero, power, some, Bool.false_eq_true, if_false, List.isEmpty_nil, Bool.and_self,
    if_true, integer, decimalNat_decimal short]
  rfl

/-- A digit is none of the characters that are no digits. -/
theorem not_mem_of_isDigit {c : Char} {cs : List Char} (h : c.isDigit = true)
    (none : cs.any Char.isDigit = false) : c ∉ cs := fun mem =>
  List.any_eq_false.1 none c mem h

theorem readValue_digit {c : Char} (digit : c.isDigit = true) (fuel : Nat) (cs : List Char) :
    readValue (fuel + 1) (c :: cs) = readNumber false (c :: cs) := by
  have word := literal?_eq_none (not_mem_of_isDigit digit (by decide)) cs
  have other : c ∉ ['"', '[', '\x7b', '-'] := not_mem_of_isDigit digit (by decide)
  rw [readValue, word]
  -- What is left is that no other reading starts with a digit.
  all_goals
    intro cs' same
    obtain ⟨rfl, -⟩ := List.cons.inj same
    exact other (by decide)

theorem readValue_minus {c : Char} (digit : c.isDigit = true) (fuel : Nat) (cs : List Char) :
    readValue (fuel + 1) ('-' :: c :: cs) = readNumber true (c :: cs) := by
  have infinity : ('I' == c) = false := beq_eq_false_iff_ne.2 fun same => by
    rw [← same] at digit
    exact absurd digit (by decide)
  have word : literal? ('-' :: c :: cs) = none := by
    simp [literal?, literals, List.isPrefixOf?, infinity]
  rw [readValue, word]

/-- **An integer is read back.** -/
theorem readBack_int {n : Int} {s : String} (h : printInt n = some s) :
    ReadBack (int n) s.toList := by
  rw [printInt] at h
  split_ifs at h with small
  obtain rfl := Option.some.inj h
  have short : digitCount n ≤ digitLimit := natAbs_lt_numeralBound_iff.1 small
  obtain ⟨c, cs, spelled⟩ : ∃ c cs, decimal n.natAbs = c :: cs :=
    List.exists_cons_of_ne_nil Nat.toDigits_ne_nil
  have digit : c.isDigit = true := isDigit_of_mem_decimal (spelled ▸ List.mem_cons_self)
  have start : IsStart c := by
    have other : c ∉ [' ', '\t', '\r', '\n', ']', '\x7d'] := not_mem_of_isDigit digit (by decide)
    simp_all [IsStart, isSpace]
  have read (negative : Bool) {rest : List Char} (stops : Stops rest) :=
    readNumber_decimal short negative stops
  rw [spelled] at read
  cases n with
  | ofNat n =>
    have text : (toString (Int.ofNat n)).toList = c :: cs := (toList_toString_ofNat n).trans spelled
    rw [text]
    refine .of_succ start fun fuel stops _ => ?_
    rw [List.cons_append, readValue_digit digit]
    exact read false stops
  | negSucc n =>
    have text : (toString (Int.negSucc n)).toList = '-' :: c :: cs :=
      (toList_toString_negSucc n).trans (congrArg _ spelled)
    rw [text]
    refine .of_succ (by decide) fun fuel stops _ => ?_
    rw [List.cons_append, List.cons_append, readValue_minus digit]
    exact read true stops

/-! ## Strings -/

theorem printText_append (s : String) (rest : List Char) :
    printText s ++ rest = '"' :: (s.toList.flatMap escapeChar ++ '"' :: rest) := by
  simp [printText]

/-- **A string is read back.** -/
theorem readBack_text (s : String) : ReadBack (text s) (printText s) := by
  refine .of_succ (by decide) fun {rest} fuel _ _ => ?_
  change readValue (fuel + 1) (printText s ++ rest) = _
  rw [printText_append, readValue, literal?_eq_none (by decide)]
  change (readText _ _ >>= fun p => pure (ofChars p.1, p.2)) = _
  rw [readText_quoted]
  exact congrArg (fun j => Except.ok (j, rest)) (ofChars_map_some s)

/-! ## Lines -/

theorem skipSpace_of_starts {t : List Char} (h : Starts t) (rest : List Char) :
    skipSpace (t ++ rest) = t ++ rest := by
  obtain ⟨c, cs, rfl, start⟩ := h
  exact List.dropWhile_cons_of_neg (by simp [start.1])

theorem skipSpace_newLine (depth : Nat) (cs : List Char) :
    skipSpace (newLine depth ++ cs) = skipSpace cs := by
  refine List.dropWhile_append_of_pos fun c mem => ?_
  rcases List.mem_cons.1 mem with rfl | blank
  · rfl
  · rw [List.eq_of_mem_replicate blank]
    rfl

theorem stops_newLine (depth : Nat) (cs : List Char) : Stops (newLine depth ++ cs) := by
  rintro c same
  exact .inr (Option.some.inj same).symm

theorem stops_comma (cs : List Char) : Stops (',' :: cs) := by
  rintro c same
  exact .inl (Option.some.inj same).symm

/-- **Texts on lines of their own**, with commas between them. -/
def onLines (depth : Nat) (ts : List (List Char)) : List Char :=
  List.intercalate (',' :: newLine depth) ts

theorem onLines_singleton (depth : Nat) (t : List Char) : onLines depth [t] = t :=
  List.intercalate_singleton

theorem onLines_cons_cons (depth : Nat) (t t' : List Char) (ts : List (List Char)) :
    onLines depth (t :: t' :: ts) = t ++ ',' :: (newLine depth ++ onLines depth (t' :: ts)) := by
  rw [onLines, List.intercalate_cons_of_ne_nil (List.cons_ne_nil t' ts)]
  simp [onLines]

theorem bracket_append (opening closing : Char) (depth : Nat) (t : List Char)
    (ts : List (List Char)) (rest : List Char) :
    bracket opening closing depth (t :: ts) ++ rest
      = opening :: (newLine (depth + 1) ++ (onLines (depth + 1) (t :: ts)
        ++ (newLine depth ++ closing :: rest))) := by
  simp [bracket, onLines]

/-- The brackets leave fuel for what is between them. -/
theorem length_onLines_lt (opening closing : Char) (depth : Nat) (t : List Char)
    (ts : List (List Char)) :
    (onLines (depth + 1) (t :: ts)).length + 1
      < (bracket opening closing depth (t :: ts)).length := by
  rw [← List.append_nil (bracket opening closing depth (t :: ts)), bracket_append]
  simp only [List.length_cons, List.length_append]
  omega

theorem Starts.append {t : List Char} (h : Starts t) (rest : List Char) : Starts (t ++ rest) := by
  obtain ⟨c, cs, rfl, start⟩ := h
  exact ⟨c, cs ++ rest, rfl, start⟩

theorem Starts.onLines {t : List Char} (h : Starts t) (depth : Nat) (ts : List (List Char)) :
    Starts (onLines depth (t :: ts)) := by
  cases ts with
  | nil => exact (onLines_singleton depth t).symm ▸ h
  | cons t' ts => exact (onLines_cons_cons depth t t' ts).symm ▸ h.append _

/-- White space ends where the next line begins. -/
theorem skipSpace_onLines {t : List Char} (h : Starts t) (depth : Nat) (ts : List (List Char))
    (rest : List Char) :
    skipSpace (newLine depth ++ (onLines depth (t :: ts) ++ rest))
      = onLines depth (t :: ts) ++ rest := by
  rw [skipSpace_newLine, skipSpace_of_starts (h.onLines depth ts)]

/-- **A reader of what stands on lines** up to a closing bracket: it goes on after a comma. -/
structure ReadsLines {α : Type} (read : Nat → List Char → Except Fault (List α × List Char))
    (closing : Char) (R : α → List Char → Prop) : Prop where
  space : isSpace closing = false
  starts : ∀ {a t}, R a t → Starts t
  last : ∀ {a t fuel rest rest'}, R a t → Stops rest → t.length ≤ fuel →
    skipSpace rest = closing :: rest' → read (fuel + 1) (t ++ rest) = .ok ([a], rest')
  more : ∀ {a as t fuel rest rest' rest''}, R a t → Stops rest → t.length ≤ fuel →
    skipSpace rest = ',' :: rest' → read fuel (skipSpace rest') = .ok (as, rest'') →
    read (fuel + 1) (t ++ rest) = .ok (a :: as, rest'')

namespace ReadsLines

variable {α : Type} {read : Nat → List Char → Except Fault (List α × List Char)}
  {opening closing : Char} {R : α → List Char → Prop} {as : List α} {ts : List (List Char)}

/-- **What stands on lines is read back.** -/
theorem read_onLines (h : ReadsLines read closing R) {depth : Nat} {rest : List Char}
    (others : List.Forall₂ R as ts) {a : α} {t : List Char} (first : R a t) {fuel : Nat}
    (short : (onLines (depth + 1) (t :: ts)).length < fuel) :
    read fuel (onLines (depth + 1) (t :: ts) ++ (newLine depth ++ closing :: rest))
      = .ok (a :: as, rest) := by
  induction others generalizing a t fuel with
  | nil =>
    obtain ⟨fuel, rfl⟩ := Nat.exists_eq_succ_of_ne_zero (Nat.ne_zero_of_lt short)
    rw [onLines_singleton] at short ⊢
    refine h.last first (stops_newLine _ _) (Nat.lt_succ_iff.1 short) ?_
    rw [skipSpace_newLine]
    exact List.dropWhile_cons_of_neg (by simp [h.space])
  | cons second others ih =>
    obtain ⟨fuel, rfl⟩ := Nat.exists_eq_succ_of_ne_zero (Nat.ne_zero_of_lt short)
    rw [onLines_cons_cons] at short ⊢
    simp only [List.length_append, List.length_cons] at short
    rw [List.append_assoc, List.cons_append, List.append_assoc]
    -- One unit of fuel goes with each part, and each part has at least a comma behind it.
    refine h.more first (stops_comma _) (by omega) rfl ?_
    rw [skipSpace_onLines (h.starts second)]
    exact ih second (by omega)

/-- **A value of parts on lines is read back** if its parts are. -/
theorem readBack (h : ReadsLines read closing R) (whole : List α → Json) (start : IsStart opening)
    (empty : ∀ fuel rest, readValue (fuel + 1) (opening :: closing :: rest) = .ok (whole [], rest))
    (parts : ∀ {cs t rest as fuel}, Starts t → skipSpace cs = t → read fuel t = .ok (as, rest) →
      readValue (fuel + 1) (opening :: cs) = .ok (whole as, rest))
    (all : List.Forall₂ R as ts) (depth : Nat) :
    ReadBack (whole as) (bracket opening closing depth ts) := by
  cases all with
  | nil => exact .of_succ start fun {rest} fuel _ _ => empty fuel rest
  | @cons a t as ts first others =>
    refine .of_succ start fun {rest} fuel _ short => ?_
    change readValue (fuel + 1) (bracket opening closing depth (t :: ts) ++ rest) = _
    change (bracket opening closing depth (t :: ts)).length ≤ fuel + 1 at short
    have room := length_onLines_lt opening closing depth t ts
    have starts := h.starts first
    rw [bracket_append]
    exact parts ((starts.onLines _ ts).append _) (skipSpace_onLines starts _ ts _)
      (h.read_onLines others first (by omega))

end ReadsLines

/-! ## Lists -/

theorem readsLines_readItems : ReadsLines readItems ']' ReadBack where
  space := by decide
  starts := ReadBack.starts
  last back stops short closes := by
    simp only [readItems, back.value stops short, closes, bind, Except.bind]
    rfl
  more back stops short goes others := by
    simp only [readItems, back.value stops short, goes, others, bind, Except.bind]
    rfl

theorem readValue_list {cs t rest : List Char} {js : List Json} {fuel : Nat} (starts : Starts t)
    (lines : skipSpace cs = t) (items : readItems fuel t = .ok (js, rest)) :
    readValue (fuel + 1) ('[' :: cs) = .ok (list js, rest) := by
  obtain ⟨c, cs', rfl, start⟩ := starts
  rw [readValue, literal?_eq_none (by decide)]
  simp only [lines]
  split
  · next same => exact absurd (List.cons.inj same).1 start.2.1
  · rw [items]
    rfl

/-- **A list is read back.** -/
theorem readBack_list {js : List Json} {ts : List (List Char)} (h : List.Forall₂ ReadBack js ts)
    (depth : Nat) : ReadBack (list js) (bracket '[' ']' depth ts) := by
  refine readsLines_readItems.readBack list (by decide) (fun fuel rest => ?_) readValue_list h depth
  rw [readValue, literal?_eq_none (by decide)]
  rfl

/-! ## Objects -/

/-- **A text of a member**: its key, and a text of its value after a colon and a blank. -/
def ReadBackMember (m : String × Json) (s : List Char) : Prop :=
  ∃ t, s = printText m.1 ++ ':' :: ' ' :: t ∧ ReadBack m.2 t

/-- The key of a member is read, and its value is what comes next. -/
theorem readMember {key : String} {j : Json} {t rest : List Char} {fuel : Nat}
    (back : ReadBack j t) (stops : Stops rest)
    (short : (printText key ++ ':' :: ' ' :: t).length ≤ fuel) :
    ∃ cs, printText key ++ ':' :: ' ' :: t ++ rest = '"' :: cs
      ∧ readText cs.length cs = .ok (key.toList.map some, ':' :: ' ' :: (t ++ rest))
      ∧ readValue fuel (skipSpace (' ' :: (t ++ rest))) = .ok (j, rest) := by
  refine ⟨_, ?_, readText_quoted key (':' :: ' ' :: (t ++ rest)), ?_⟩
  · rw [List.append_assoc, printText_append, List.cons_append, List.cons_append]
  · change readValue fuel (skipSpace (t ++ rest)) = _
    rw [skipSpace_of_starts back.starts]
    simp only [List.length_append, List.length_cons] at short
    exact back.value stops (by omega)

theorem readsLines_readMembers : ReadsLines readMembers '}' ReadBackMember where
  space := by decide
  starts := by
    rintro _ _ ⟨t, rfl, -⟩
    exact ⟨'"', _, rfl, by decide, by decide⟩
  last := by
    rintro ⟨key, j⟩ _ fuel rest rest' ⟨t, rfl, back⟩ stops short closes
    obtain ⟨cs, spelled, name, value⟩ := readMember back stops short
    have colon : skipSpace (':' :: ' ' :: (t ++ rest)) = ':' :: ' ' :: (t ++ rest) := rfl
    rw [spelled]
    simp only [readMembers, name, colon, value, closes, shown_map_some, bind, Except.bind]
    rfl
  more := by
    rintro ⟨key, j⟩ ms _ fuel rest rest' rest'' ⟨t, rfl, back⟩ stops short goes others
    obtain ⟨cs, spelled, name, value⟩ := readMember back stops short
    have colon : skipSpace (':' :: ' ' :: (t ++ rest)) = ':' :: ' ' :: (t ++ rest) := rfl
    rw [spelled]
    simp only [readMembers, name, colon, value, goes, others, shown_map_some, bind, Except.bind]
    rfl

theorem readValue_object {cs t rest : List Char} {ms : List (String × Json)} {fuel : Nat}
    (starts : Starts t) (lines : skipSpace cs = t)
    (members : readMembers fuel t = .ok (ms, rest)) :
    readValue (fuel + 1) ('\x7b' :: cs) = .ok (object ms, rest) := by
  obtain ⟨c, cs', rfl, start⟩ := starts
  rw [readValue, literal?_eq_none (by decide)]
  simp only [lines]
  split
  · next same => exact absurd (List.cons.inj same).1 start.2.2
  · rw [members]
    rfl

/-- **An object is read back.** -/
theorem readBack_object {ms : List (String × Json)} {ts : List (List Char)}
    (h : List.Forall₂ ReadBackMember ms ts) (depth : Nat) :
    ReadBack (object ms) (bracket '\x7b' '\x7d' depth ts) := by
  refine readsLines_readMembers.readBack object (by decide) (fun fuel rest => ?_) readValue_object h
    depth
  rw [readValue, literal?_eq_none (by decide)]
  rfl

/-! ## Values -/

mutual

/-- **The value is given by its text**: no number in it has a fraction, and no string half a
surrogate pair. -/
def isExact : Json → Bool
  | null | bool _ | int _ | text _ => true
  | real _ | halfText _ => false
  | list items => allExact items
  | object members => membersExact members

/-- All items are given by their texts. -/
def allExact : List Json → Bool
  | [] => true
  | j :: js => j.isExact && allExact js

/-- All members are given by their texts. -/
def membersExact : List (String × Json) → Bool
  | [] => true
  | (_, j) :: ms => j.isExact && membersExact ms

end

mutual

/-- **A printed value is read back.** -/
theorem readBack_printAt (depth : Nat) : ∀ (j : Json) {t : List Char}, j.isExact = true →
    printAt depth j = some t → ReadBack j t
  | null => fun _ h => Option.some.inj h ▸ readBack_null
  | bool b => fun _ h => Option.some.inj h ▸ readBack_bool b
  | int n => fun _ h => by
      rw [printAt, Option.map_eq_some_iff] at h
      obtain ⟨s, printed, rfl⟩ := h
      exact readBack_int printed
  | real _ => fun exact => nomatch exact
  | text s => fun _ h => Option.some.inj h ▸ readBack_text s
  | halfText _ => fun exact => nomatch exact
  | list js => fun exact h => by
      obtain ⟨ts, printed, rfl⟩ := Option.map_eq_some_iff.1 h
      exact readBack_list (readBack_printItems (depth + 1) js exact printed) depth
  | object ms => fun exact h => by
      obtain ⟨ts, printed, rfl⟩ := Option.map_eq_some_iff.1 h
      exact readBack_object (readBack_printMembers (depth + 1) ms exact printed) depth

theorem readBack_printItems (depth : Nat) : ∀ (js : List Json) {ts : List (List Char)},
    allExact js = true → printItems depth js = some ts → List.Forall₂ ReadBack js ts
  | [] => fun _ h => Option.some.inj h ▸ .nil
  | j :: js => fun exact h => by
      obtain ⟨first, others⟩ := Bool.and_eq_true_iff.1 exact
      obtain ⟨t, printed, h⟩ := Option.bind_eq_some_iff.1 h
      obtain ⟨ts, printed', h⟩ := Option.bind_eq_some_iff.1 h
      obtain rfl := Option.some.inj h
      exact .cons (readBack_printAt depth j first printed)
        (readBack_printItems depth js others printed')

theorem readBack_printMembers (depth : Nat) : ∀ (ms : List (String × Json))
    {ts : List (List Char)}, membersExact ms = true → printMembers depth ms = some ts →
      List.Forall₂ ReadBackMember ms ts
  | [] => fun _ h => Option.some.inj h ▸ .nil
  | (key, j) :: ms => fun exact h => by
      obtain ⟨first, others⟩ := Bool.and_eq_true_iff.1 exact
      obtain ⟨t, printed, h⟩ := Option.bind_eq_some_iff.1 h
      obtain ⟨ts, printed', h⟩ := Option.bind_eq_some_iff.1 h
      obtain rfl := Option.some.inj h
      exact .cons ⟨t, rfl, readBack_printAt depth j first printed⟩
        (readBack_printMembers depth ms others printed')

end

/-- **A text that was printed is parsed as what it was printed from.** -/
theorem parse_print {j : Json} {s : String} (exact : j.isExact = true) (h : j.print = some s) :
    parse s = .ok j := by
  obtain ⟨t, printed, rfl⟩ := Option.map_eq_some_iff.1 h
  have back := readBack_printAt 0 j exact printed
  have front : skipSpace t = t := by
    have := skipSpace_of_starts back.starts []
    rwa [List.append_nil] at this
  have value := @ReadBack.value _ _ back [] (2 * t.length + 1) nofun (by omega)
  rw [List.append_nil] at value
  rw [parse, String.toList_ofList, front]
  simp only [value, bind, Except.bind]
  rfl

/-! ## What is printed -/

mutual

/-- **The integers in a value**, at any depth. -/
def integers : Json → List Int
  | null | bool _ | real _ | text _ | halfText _ => []
  | int n => [n]
  | list items => integersOf items
  | object members => integersOfMembers members

/-- The integers in items. -/
def integersOf : List Json → List Int
  | [] => []
  | j :: js => j.integers ++ integersOf js

/-- The integers in members. -/
def integersOfMembers : List (String × Json) → List Int
  | [] => []
  | (_, j) :: ms => j.integers ++ integersOfMembers ms

end

mutual

theorem exists_printAt (depth : Nat) : ∀ j : Json,
    (∀ n ∈ j.integers, digitCount n ≤ digitLimit) → ∃ t, printAt depth j = some t
  | null, _ | bool _, _ | real _, _ | text _, _ | halfText _, _ => ⟨_, rfl⟩
  | int n, short => by
      have small := natAbs_lt_numeralBound_iff.2 (short n (List.mem_singleton_self n))
      exact ⟨(toString n).toList, by rw [printAt, printInt, if_pos small, Option.map_some]⟩
  | list js, short => by
      obtain ⟨ts, printed⟩ := exists_printItems (depth + 1) js short
      exact ⟨_, by rw [printAt, printed, Option.map_some]⟩
  | object ms, short => by
      obtain ⟨ts, printed⟩ := exists_printMembers (depth + 1) ms short
      exact ⟨_, by rw [printAt, printed, Option.map_some]⟩

theorem exists_printItems (depth : Nat) : ∀ js : List Json,
    (∀ n ∈ integersOf js, digitCount n ≤ digitLimit) → ∃ ts, printItems depth js = some ts
  | [], _ => ⟨[], rfl⟩
  | j :: js, short => by
      obtain ⟨first, others⟩ := List.forall_mem_append.1 short
      obtain ⟨t, printed⟩ := exists_printAt depth j first
      obtain ⟨ts, printed'⟩ := exists_printItems depth js others
      exact ⟨t :: ts, by rw [printItems, printed, printed']; rfl⟩

theorem exists_printMembers (depth : Nat) : ∀ ms : List (String × Json),
    (∀ n ∈ integersOfMembers ms, digitCount n ≤ digitLimit) →
      ∃ ts, printMembers depth ms = some ts
  | [], _ => ⟨[], rfl⟩
  | (key, j) :: ms, short => by
      obtain ⟨first, others⟩ := List.forall_mem_append.1 short
      obtain ⟨t, printed⟩ := exists_printAt depth j first
      obtain ⟨ts, printed'⟩ := exists_printMembers depth ms others
      exact ⟨_ :: ts, by rw [printMembers, printed, printed']; rfl⟩

end

/-- **A value is printed if no integer in it is too long.** -/
theorem exists_print {j : Json} (short : ∀ n ∈ j.integers, digitCount n ≤ digitLimit) :
    ∃ s, j.print = some s := by
  obtain ⟨t, printed⟩ := exists_printAt 0 j short
  exact ⟨String.ofList t, by rw [print, printed, Option.map_some]⟩

end ProtoSchema.Json
