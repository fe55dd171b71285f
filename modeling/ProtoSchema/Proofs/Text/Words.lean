import Mathlib.Data.List.TakeWhile
import ProtoSchema.Text.Blank
import ProtoSchema.Text.Word

/-!
# Proofs/Text/Words — blanks separate words and say nothing else

A blank cuts the words of a text in two (`words_append_blank`), and every other fact about words is
read off that one: blanks at either end are no part of a word, and `collapse` writes the words of a
text with single spaces.  Words that are put side by side are read back (`words_unwords`).
-/

namespace ProtoSchema.Text

/-- **A word**: it holds something, and no blank. -/
def IsWord (w : List Char) : Prop := w ≠ [] ∧ ∀ c ∈ w, isBlank c = false

/-- **A blank cuts the words in two.** -/
theorem words_append_blank {c : Char} (hc : isBlank c = true) (a b : List Char) :
    words (a ++ c :: b) = words a ++ words b := by
  rw [words, List.splitOnP_append_cons a b hc, List.filter_append]
  rfl

theorem words_cons_blank {c : Char} (hc : isBlank c = true) (cs : List Char) :
    words (c :: cs) = words cs := words_append_blank hc [] cs

/-- Blanks in front of a text belong to no word. -/
theorem words_blanks_append :
    ∀ {blanks : List Char}, (∀ c ∈ blanks, isBlank c = true) → ∀ cs, words (blanks ++ cs) = words cs
  | [], _, _ => rfl
  | c :: blanks, h, cs => by
      rw [List.cons_append, words_cons_blank (h c (by simp))]
      exact words_blanks_append (fun d hd => h d (List.mem_cons_of_mem _ hd)) cs

/-- A text without blanks is one word. -/
theorem words_of_isWord {w : List Char} (h : IsWord w) : words w = [w] := by
  rw [words, List.splitOnP_eq_singleton h.2]
  simp [h.1]

theorem unwords_cons {w : List Char} {ws : List (List Char)} (h : ws ≠ []) :
    unwords (w :: ws) = w ++ ' ' :: unwords ws := by
  rw [unwords, List.intercalate_cons_of_ne_nil h, List.append_assoc]
  rfl

/-- The last of several pieces stands behind a separator. -/
theorem intercalate_concat (sep v : List Char) :
    ∀ {ws : List (List Char)}, ws ≠ [] →
      List.intercalate sep (ws ++ [v]) = List.intercalate sep ws ++ (sep ++ v)
  | [w], _ => by simp
  | w :: u :: ws, _ => by
      have rest := intercalate_concat sep v (List.cons_ne_nil u ws)
      calc List.intercalate sep (w :: (u :: ws ++ [v]))
          = w ++ sep ++ List.intercalate sep (u :: ws ++ [v]) := List.intercalate_cons_cons
        _ = w ++ sep ++ List.intercalate sep (u :: ws) ++ (sep ++ v) := by
          rw [rest, ← List.append_assoc]
        _ = List.intercalate sep (w :: u :: ws) ++ (sep ++ v) := by
          rw [← List.intercalate_cons_cons]

theorem unwords_append_singleton (v : List Char) {ws : List (List Char)} (h : ws ≠ []) :
    unwords (ws ++ [v]) = unwords ws ++ ' ' :: v := intercalate_concat [' '] v h

/-- What holds of the characters of a separator and of all pieces holds of the joined text. -/
theorem forall_mem_intercalate {p : Char → Prop} {sep : List Char} (hs : ∀ c ∈ sep, p c) :
    ∀ {ws : List (List Char)}, (∀ w ∈ ws, ∀ c ∈ w, p c) → ∀ c ∈ List.intercalate sep ws, p c
  | [], _, c, hc => absurd hc (by simp)
  | [w], h, c, hc => h w (by simp) c (by simpa using hc)
  | w :: v :: ws, h, c, hc => by
      rw [List.intercalate_cons_cons, List.mem_append, List.mem_append] at hc
      rcases hc with (hc | hc) | hc
      · exact h w (by simp) c hc
      · exact hs c hc
      · exact forall_mem_intercalate hs (fun u hu => h u (List.mem_cons_of_mem _ hu)) c hc

/-- A change of single characters changes the pieces and the separator. -/
theorem map_intercalate (f : Char → Char) (sep : List Char) : ∀ ws : List (List Char),
    (List.intercalate sep ws).map f = List.intercalate (sep.map f) (ws.map (List.map f))
  | [] => rfl
  | [w] => by simp
  | w :: v :: ws => by
      have rest := map_intercalate f sep (v :: ws)
      rw [List.intercalate_cons_cons, List.map_append, List.map_append, rest]
      exact List.intercalate_cons_cons.symm

/-- **Words put side by side are read back.** -/
theorem words_unwords : ∀ {ws : List (List Char)}, (∀ w ∈ ws, IsWord w) → words (unwords ws) = ws
  | [], _ => rfl
  | [w], h => by simpa [unwords] using words_of_isWord (h w (by simp))
  | w :: v :: ws, h => by
      rw [unwords_cons (by simp), words_append_blank isBlank_space,
        words_of_isWord (h w (by simp)), words_unwords fun u hu => h u (List.mem_cons_of_mem _ hu)]
      rfl

/-! ## Word characters -/

/-- The code points of the blanks. -/
def blankCodes : List Nat :=
  List.range' 0x09 5 ++ List.range' 0x1C 5 ++ [0x85, 0xA0, 0x1680] ++ List.range' 0x2000 11
    ++ [0x2028, 0x2029, 0x202F, 0x205F, 0x3000]

theorem toNat_mem_blankCodes {c : Char} (h : isBlank c = true) : c.toNat ∈ blankCodes := by
  simp only [isBlank, Bool.or_eq_true, Bool.and_eq_true, decide_eq_true_eq] at h
  simp only [blankCodes, List.mem_append, List.mem_range'_1, List.mem_cons, List.not_mem_nil,
    or_false]
  omega

theorem isWordChar_of_isBlank {c : Char} (h : isBlank c = true) : isWordChar c = false := by
  have table : ∀ n ∈ blankCodes, isWordChar (Char.ofNat n) = false := by decide +kernel
  have entry := table _ (toNat_mem_blankCodes h)
  rwa [Char.ofNat_toNat] at entry

/-- A word character is no blank. -/
theorem isBlank_of_isWordChar {c : Char} (h : isWordChar c = true) : isBlank c = false := by
  refine Bool.eq_false_iff.2 fun blank => ?_
  rw [isWordChar_of_isBlank blank] at h
  exact nomatch h

/-! ## Pieces -/

/-- **Splitting a text is a recursion on it**: it holds no separator, or goes on after the first. -/
theorem splitOnP_induction {p : Char → Bool} {motive : List Char → List (List Char) → Prop}
    (whole : ∀ cs, (∀ c ∈ cs, p c = false) → motive cs [cs])
    (first : ∀ a s b, (∀ c ∈ a, p c = false) → p s = true → motive b (b.splitOnP p) →
      motive (a ++ s :: b) (a :: b.splitOnP p)) (cs : List Char) : motive cs (cs.splitOnP p) := by
  by_cases free : ∀ c ∈ cs, p c = false
  · rw [List.splitOnP_eq_singleton free]
    exact whole cs free
  · -- What stands before the first separator is a piece of its own.
    have split := List.takeWhile_append_dropWhile (p := fun c => !p c) (l := cs)
    have before : ∀ c ∈ cs.takeWhile (fun c => !p c), p c = false := fun c hc => by
      simpa using List.mem_takeWhile_imp hc
    cases rest : cs.dropWhile (fun c => !p c) with
    | nil =>
      rw [rest, List.append_nil] at split
      exact absurd (split ▸ before) free
    | cons s b =>
      have sep : p s = true := by
        have := List.head?_dropWhile_not (fun c => !p c) cs
        rw [rest] at this
        simpa using this
      rw [rest] at split
      have shorter : b.length < cs.length := by
        rw [← split, List.length_append, List.length_cons]
        omega
      rw [← split, List.splitOnP_append_cons_of_forall_mem before s sep]
      exact first _ s b before sep (splitOnP_induction whole first b)
termination_by cs.length

/-- A piece between separators stands in the text. -/
theorem infix_of_mem_splitOnP (p : Char → Bool) (cs : List Char) :
    ∀ w ∈ cs.splitOnP p, w <:+: cs :=
  splitOnP_induction (motive := fun cs ws => ∀ w ∈ ws, w <:+: cs)
    (fun cs _ _ hw => List.mem_singleton.1 hw ▸ List.infix_refl cs)
    (fun a s b _ _ ih w hw => by
      rcases List.mem_cons.1 hw with rfl | hw
      · exact (List.prefix_append w _).isInfix
      · exact (ih w hw).trans ⟨a ++ [s], [], by simp⟩) cs

/-- A piece holds no separator. -/
theorem not_sep_of_mem_splitOnP (p : Char → Bool) (cs : List Char) :
    ∀ w ∈ cs.splitOnP p, ∀ c ∈ w, p c = false :=
  splitOnP_induction (motive := fun _ ws => ∀ w ∈ ws, ∀ c ∈ w, p c = false)
    (fun _ free _ hw => List.mem_singleton.1 hw ▸ free)
    (fun _ _ _ free _ ih _ hw => by
      rcases List.mem_cons.1 hw with rfl | hw
      · exact free
      · exact ih _ hw) cs

/-- What is no separator stands in some piece. -/
theorem mem_flatten_splitOn {s c : Char} {cs : List Char} (mem : c ∈ cs) (ne : c ≠ s) :
    c ∈ (cs.splitOn s).flatten := by
  have all : ∀ d ∈ List.intercalate [s] (cs.splitOn s), d = s ∨ d ∈ (cs.splitOn s).flatten :=
    forall_mem_intercalate (fun d hd => .inl (List.mem_singleton.1 hd))
      fun w hw d hd => .inr (List.mem_flatten.2 ⟨w, hw, hd⟩)
  rw [List.intercalate_splitOn s] at all
  exact (all c mem).resolve_left ne

theorem isWord_of_mem_words {cs w : List Char} (h : w ∈ words cs) : IsWord w := by
  obtain ⟨piece, some⟩ := List.mem_filter.1 h
  exact ⟨by simpa using some, not_sep_of_mem_splitOnP isBlank cs w piece⟩

/-- Collapsing keeps the words. -/
theorem words_collapse (cs : List Char) : words (collapse cs) = words cs :=
  words_unwords fun _ => isWord_of_mem_words

theorem infix_of_mem_words {cs w : List Char} (h : w ∈ words cs) : w <:+: cs :=
  infix_of_mem_splitOnP isBlank cs w (List.mem_filter.1 h).1

/-- A stretch of blanks cuts the words in two. -/
theorem words_append_blanks {u : List Char} (ne : u ≠ []) (hu : ∀ c ∈ u, isBlank c = true)
    (a b : List Char) : words (a ++ u ++ b) = words a ++ words b := by
  obtain ⟨c, u, rfl⟩ := List.exists_cons_of_ne_nil ne
  obtain ⟨hc, hu⟩ := List.forall_mem_cons.1 hu
  rw [List.append_assoc, List.cons_append, words_append_blank hc, words_blanks_append hu]

/-- A text has no words just if it is blank. -/
theorem words_eq_nil_iff {cs : List Char} : words cs = [] ↔ ∀ c ∈ cs, isBlank c = true := by
  refine ⟨?_, fun h => ?_⟩
  · refine splitOnP_induction (p := isBlank)
      (motive := fun cs ws => ws.filter (!·.isEmpty) = [] → ∀ c ∈ cs, isBlank c = true)
      (fun cs _ none => ?_) (fun a s b _ blank ih none => ?_) cs
    · obtain rfl : cs = [] := by simpa using none
      simp
    · cases a with
      | nil => exact List.forall_mem_cons.2 ⟨blank, ih none⟩
      | cons d a => exact nomatch none
  · have blank := words_blanks_append h []
    rwa [List.append_nil] at blank

/-- Blanks after a text belong to no word. -/
theorem words_append_of_blanks {u : List Char} (hu : ∀ c ∈ u, isBlank c = true) (cs : List Char) :
    words (cs ++ u) = words cs := by
  cases u with
  | nil => rw [List.append_nil]
  | cons c u =>
    obtain ⟨hc, hu⟩ := List.forall_mem_cons.1 hu
    rw [words_append_blank hc, words_eq_nil_iff.2 hu, List.append_nil]

theorem trimEnd_prefix (cs : List Char) : trimEnd cs <+: cs := by
  rw [trimEnd, ← List.reverse_suffix, List.reverse_reverse]
  exact List.dropWhile_suffix _

theorem words_trimEnd (cs : List Char) : words (trimEnd cs) = words cs := by
  have split : trimEnd cs ++ (cs.reverse.takeWhile isBlank).reverse = cs := by
    rw [trimEnd, ← List.reverse_append, List.takeWhile_append_dropWhile, List.reverse_reverse]
  have blank : ∀ c ∈ (cs.reverse.takeWhile isBlank).reverse, isBlank c = true := fun c hc =>
    List.mem_takeWhile_imp (List.mem_reverse.1 hc)
  have whole := words_append_of_blanks blank (trimEnd cs)
  rw [split] at whole
  exact whole.symm

/-- A text has one word just if there are only blanks around it. -/
theorem words_eq_singleton_iff {w cs : List Char} (hw : IsWord w) :
    words cs = [w] ↔ ∃ before after, (∀ c ∈ before, isBlank c = true)
      ∧ (∀ c ∈ after, isBlank c = true) ∧ cs = before ++ (w ++ after) := by
  refine ⟨?_, ?_⟩
  · refine splitOnP_induction (p := isBlank)
      (motive := fun cs ws => ws.filter (!·.isEmpty) = [w] →
        ∃ before after, (∀ c ∈ before, isBlank c = true) ∧ (∀ c ∈ after, isBlank c = true)
          ∧ cs = before ++ (w ++ after))
      (fun cs _ one => ?_) (fun a s b _ blank ih one => ?_) cs
    · cases cs with
      | nil => exact nomatch one
      | cons d cs => exact ⟨[], [], by simp, by simp, by simpa using one⟩
    · cases a with
      | nil =>
        obtain ⟨before, after, hb, ha, rfl⟩ := ih one
        exact ⟨s :: before, after, List.forall_mem_cons.2 ⟨blank, hb⟩, ha, rfl⟩
      | cons d a =>
        obtain ⟨rfl, rest⟩ := List.cons.inj one
        have after : ∀ c ∈ b, isBlank c = true := words_eq_nil_iff.1 rest
        exact ⟨[], s :: b, by simp, List.forall_mem_cons.2 ⟨blank, after⟩, rfl⟩
  · rintro ⟨before, after, hb, ha, rfl⟩
    rw [words_blanks_append hb, words_append_of_blanks ha, words_of_isWord hw]

/-- A text that neither starts nor ends with a blank is left alone by trimming. -/
theorem trimStart_of_head {c : Char} (hc : isBlank c = false) (cs : List Char) :
    trimStart (c :: cs) = c :: cs := by
  rw [trimStart, List.dropWhile_cons_of_neg (by simp [hc])]

theorem trimEnd_cons {c : Char} (hc : isBlank c = false) (cs : List Char) :
    trimEnd (c :: cs) = c :: trimEnd cs := by
  have kept : (cs.reverse ++ [c]).dropWhile isBlank = cs.reverse.dropWhile isBlank ++ [c] := by
    rw [List.dropWhile_append]
    split_ifs with none
    · rw [List.isEmpty_iff.1 none, List.dropWhile_cons_of_neg (by simp [hc]), List.nil_append]
    · rfl
  rw [trimEnd, List.reverse_cons, kept, List.reverse_append]
  rfl

/-! ## Collapsing from left to right -/

/-- Writes one space for each stretch of blanks that something follows; `blank` says that blanks
stand before the text. -/
def squeeze : (blank : Bool) → List Char → List Char
  | _, [] => []
  | blank, c :: cs =>
    if isBlank c then squeeze true cs
    else (if blank then [' ', c] else [c]) ++ squeeze false cs

theorem squeeze_cons_blank {c : Char} (hc : isBlank c = true) (blank : Bool) (cs : List Char) :
    squeeze blank (c :: cs) = squeeze true cs := by
  rw [squeeze, if_pos hc]

theorem squeeze_cons {c : Char} (hc : isBlank c = false) (cs : List Char) :
    squeeze false (c :: cs) = c :: squeeze false cs := by
  simp [squeeze, hc]

theorem squeeze_true_cons {c : Char} (hc : isBlank c = false) (cs : List Char) :
    squeeze true (c :: cs) = ' ' :: c :: squeeze false cs := by
  simp [squeeze, hc]

theorem unwords_eq_append_flatMap (w : List Char) : ∀ ws : List (List Char),
    unwords (w :: ws) = w ++ ws.flatMap (' ' :: ·)
  | [] => by simp [unwords]
  | v :: ws => by
      rw [unwords_cons (by simp), unwords_eq_append_flatMap v ws]
      rfl

/-- **Squeezing writes the words of a text**: a word in front of it goes on in it, and after blanks
each of its words has a space before it. -/
theorem squeeze_spec : ∀ cs : List Char,
    (∀ {w}, IsWord w → w ++ squeeze false cs = collapse (w ++ cs))
      ∧ squeeze true cs = (words cs).flatMap (' ' :: ·)
  | [] => ⟨fun hw => by simp [squeeze, collapse, words_of_isWord hw, unwords], rfl⟩
  | c :: cs => by
      obtain ⟨grows, ended⟩ := squeeze_spec cs
      by_cases hc : isBlank c = true
      · refine ⟨fun {w} hw => ?_, by rw [squeeze_cons_blank hc, ended, words_cons_blank hc]⟩
        rw [squeeze_cons_blank hc, ended, collapse, words_append_blank hc, words_of_isWord hw,
          List.singleton_append, unwords_eq_append_flatMap]
      · have hc : isBlank c = false := by simpa using hc
        refine ⟨fun {w} hw => ?_, ?_⟩
        · have grown : IsWord (w ++ [c]) := ⟨by simp, fun d hd => by
            rcases List.mem_append.1 hd with hd | hd
            · exact hw.2 d hd
            · rwa [List.mem_singleton.1 hd]⟩
          rw [squeeze_cons hc, ← List.singleton_append, ← List.append_assoc, grows grown,
            List.append_assoc, List.singleton_append]
        · have first : c :: squeeze false cs = collapse (c :: cs) :=
            grows (w := [c]) ⟨by simp, by simpa using hc⟩
          rw [squeeze_true_cons hc, first, collapse]
          cases split : words (c :: cs) with
          | nil => exact absurd first (by simp [collapse, split, unwords])
          | cons w ws => rw [unwords_eq_append_flatMap, List.flatMap_cons]; rfl

/-! ## Deciding -/

namespace Letterwise

/-- **What holds of the characters of a text** is decided along the text, and not by going through
all characters there are. -/
scoped instance (priority := 2000) decidableForallMem {p : Char → Prop} [DecidablePred p]
    (cs : List Char) : Decidable (∀ c ∈ cs, p c) := List.decidableBAll p cs

end Letterwise

end ProtoSchema.Text
