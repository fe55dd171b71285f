import ProtoSchema.Proofs.Source.Lexemes
import ProtoSchema.Statement
import ProtoSchema.Text.Word

/-!
# Proofs/Source/Literal — what is read of a string literal

The value of an option is the last word of its statement.  A literal in quotes comes back as that
word just if it is *opaque*: it holds no blank and no delimiter, no `=` but all by itself, and no
`)returns(` (`getLast?_words_eq_some_iff`).
-/

namespace ProtoSchema

open Text Source

/-! ## Words without quotes -/

namespace Text

/-- Leaving out characters that do not separate pieces leaves them out of the pieces. -/
theorem splitOnP_filter {p q : Char → Bool} (h : ∀ c, p c = true → q c = true) (cs : List Char) :
    (cs.filter q).splitOnP p = (cs.splitOnP p).map (List.filter q) :=
  splitOnP_induction (motive := fun cs ws => (cs.filter q).splitOnP p = ws.map (List.filter q))
    (fun cs free => List.splitOnP_eq_singleton fun c hc => free c (List.mem_of_mem_filter hc))
    (fun a s b free sep ih => by
      rw [List.filter_append, List.filter_cons_of_pos (h s sep),
        List.splitOnP_append_cons_of_forall_mem
          (fun c hc => free c (List.mem_of_mem_filter hc)) s sep, ih, List.map_cons]) cs

theorem filter_map_filter {f : List Char → List Char} (hf : f [] = []) : ∀ ws : List (List Char),
    ((ws.filter (!·.isEmpty)).map f).filter (!·.isEmpty) = (ws.map f).filter (!·.isEmpty)
  | [] => rfl
  | [] :: ws => by simpa [hf] using filter_map_filter hf ws
  | (c :: w) :: ws => by
      simp [List.filter_cons, filter_map_filter hf ws]

end Text

/-- **The tokens of a text are the words of the text without its quotes.** -/
theorem tokens_eq_map_words (cs : List Char) :
    tokens cs = (words (unquote cs)).map String.ofList := by
  have kept : ∀ c, isBlank c = true → (!isQuote c) = true := fun c blank => by
    by_contra quote
    simp only [isQuote, Bool.not_eq_true, Bool.not_eq_false', Bool.or_eq_true,
      decide_eq_true_eq] at quote
    rcases quote with rfl | rfl <;> exact absurd blank (by decide)
  rw [tokens, tokensOfWords, words, filter_map_filter rfl, words, unquote, splitOnP_filter kept]
  rfl

/-! ## Words and equals signs -/

namespace Source

/-- An equals sign has a space at either side. -/
def Spaced (x y : Char) : Prop := (y = '=' → x = ' ') ∧ (x = '=' → y = ' ')

theorem head?_spaceEquals_ne (cs : List Char) : (spaceEquals cs).head? ≠ some '=' := by
  cases cs with
  | nil => exact nofun
  | cons c cs =>
    rw [spaceEquals, List.flatMap_cons]
    split_ifs with equals
    · simp
    · simpa using equals

theorem isChain_spaceEquals : ∀ cs : List Char, (spaceEquals cs).IsChain Spaced
  | [] => List.isChain_nil
  | c :: cs => by
      have rest := isChain_spaceEquals cs
      have head := head?_spaceEquals_ne cs
      by_cases equals : c = '='
      · subst equals
        change (' ' :: '=' :: ' ' :: spaceEquals cs).IsChain Spaced
        rw [List.isChain_cons, List.isChain_cons, List.isChain_cons]
        refine ⟨?_, ?_, ?_, rest⟩ <;> simp [Spaced]
      · have copied : spaceEquals (c :: cs) = c :: spaceEquals cs := by simp [spaceEquals, equals]
        rw [copied, List.isChain_cons]
        exact ⟨fun y hy => ⟨fun e => absurd (e ▸ hy) head, fun e => absurd e equals⟩, rest⟩

/-- Equals signs stay apart from what surrounds them. -/
theorem isChain_returns (cs : List Char) :
    (replaceAll returnsBetween (spaceEquals cs)).IsChain Spaced := by
  refine (returnsBetween_finds.replaced _).isChain head?_of_isReturns rfl ?_ ?_
    (isChain_spaceEquals cs)
  · exact List.isChain_iff_forall_rel_of_append_cons_cons.2 fun x y xs ys same => by
      have apart : '=' ∉ ") returns (".toList := by decide
      exact ⟨fun e => absurd (same ▸ by simp [e]) apart, fun e => absurd (same ▸ by simp [e]) apart⟩
  · rintro _ ⟨before, after, -, -, rfl⟩ y follows x last
    obtain rfl : '(' = x := Option.some.inj last
    refine follows '(' ?_
    rw [← List.append_assoc, ← List.append_assoc, ← List.cons_append, List.getLast?_concat]
    rfl

/-- A word with an equals sign is one. -/
theorem eq_of_equals_mem_word {cs w : List Char}
    (hw : w ∈ words (replaceAll returnsBetween (spaceEquals cs))) (equals : '=' ∈ w) :
    w = ['='] := by
  have blank : ' ' ∉ w := fun mem => by
    simpa [isBlank_space] using (isWord_of_mem_words hw).2 ' ' mem
  have inside := List.IsChain.infix (isChain_returns cs) (infix_of_mem_words hw)
  have chain := List.isChain_iff_forall_rel_of_append_cons_cons.1 inside
  obtain ⟨a, b, rfl⟩ := List.append_of_mem equals
  have before : a = [] := by
    rcases a.eq_nil_or_concat with rfl | ⟨a, c, rfl⟩
    · rfl
    · have split : a.concat c ++ '=' :: b = a ++ c :: '=' :: b := by simp
      have space := (chain split).1 rfl
      exact absurd (by simp [space]) blank
  have after : b = [] := by
    cases b with
    | nil => rfl
    | cons c b =>
      have space := (chain rfl).2 rfl
      exact absurd (by simp [space]) blank
  rw [before, after, List.nil_append]

/-! ## Words and results of methods -/

theorem infix_of_infix_append {p : List Char} : ∀ {u cs : List Char}, ')' ∉ u →
    ')' :: p <:+: u ++ cs → ')' :: p <:+: cs
  | [], _, _, part => part
  | c :: u, cs, free, part => by
      obtain ⟨hc, free⟩ := List.ne_and_not_mem_of_not_mem_cons free
      rcases List.infix_cons_iff.1 part with start | part
      · exact absurd (List.cons_prefix_cons.1 start).1 hc
      · exact infix_of_infix_append free part

/-- **Once spaced, `returns` is not found again** without blanks between parentheses. -/
theorem not_returns_infix (cs : List Char) :
    ¬ ")returns(".toList <:+: replaceAll returnsBetween cs := by
  have word : ")returns(".toList = ')' :: "returns(".toList := rfl
  match cs with
  | [] => exact fun part => nomatch List.infix_nil.1 part
  | c :: cs =>
    rcases returnsBetween_finds.cases c cs with ⟨copied, none⟩ | ⟨p, rest, -, split, replaced⟩
    · rw [copied]
      intro part
      rcases List.infix_cons_iff.1 part with start | part
      · rw [word] at start
        obtain ⟨rfl, after⟩ := List.cons_prefix_cons.1 start
        -- The phrase would have stood there before.
        have free : ')' ∉ "returns(".toList := by decide
        obtain ⟨tail, rfl⟩ := (returnsBetween_finds.replaced cs).prefix_of_not_mem
          head?_of_isReturns rfl free after
        exact none _ tail ⟨[], [], by simp, by simp, rfl⟩ (by simp) rfl
      · exact not_returns_infix cs part
    · have shorter : rest.length ≤ cs.length := by simp [split]
      rw [replaced]
      intro part
      rcases List.infix_cons_iff.1 part with start | part
      · have next : 'r' = ' ' := (List.cons_prefix_cons.1 (List.cons_prefix_cons.1 start).2).1
        exact absurd next (by decide)
      · have free : ')' ∉ " returns (".toList := by decide
        exact not_returns_infix rest (infix_of_infix_append free part)
termination_by cs.length
decreasing_by all_goals simp only [List.length_cons]; omega

/-! ## Opaque literals -/

/-- **A literal that is read back as it is**: it has no blank and no delimiter in it, no equals sign
unless it is one, and no `returns` between parentheses. -/
structure IsOpaque (s : List Char) : Prop where
  ne_nil : s ≠ []
  unblank : ∀ c ∈ s, isBlank c = false
  undelimited : ∀ c ∈ s, Lexeme.ofDelimiter? c = none
  equals : '=' ∈ s → s = ['=']
  returns : ¬ ")returns(".toList <:+: s

/-- **The last word of a literal without delimiters is the literal just if it is opaque.** -/
theorem getLast?_words_eq_some_iff {s : List Char} (h : ∀ c ∈ s, Lexeme.ofDelimiter? c = none) :
    (words (replaceAll returnsBetween (spaceEquals s))).getLast? = some s ↔ IsOpaque s := by
  constructor
  · intro last
    have word := List.mem_of_getLast? last
    obtain ⟨ne, unblank⟩ := isWord_of_mem_words word
    exact ⟨ne, unblank, h, eq_of_equals_mem_word word, fun returns =>
      not_returns_infix _ (returns.trans (infix_of_mem_words word))⟩
  · intro opaq
    by_cases equals : '=' ∈ s
    · obtain rfl := opaq.equals equals
      decide
    · have kept : replaceAll returnsBetween s = s := by
        refine (returnsBetween_finds.replaced s).eq_of_absent ?_
        rintro _ ⟨before, after, hb, ha, rfl⟩ part
        have none : ∀ blanks : List Char, (∀ c ∈ blanks, isBlank c = true) → blanks ⊆ s →
            blanks = [] := fun blanks hblank inside =>
          List.eq_nil_iff_forall_not_mem.2 fun c hc => by
            simpa [hblank c hc] using opaq.unblank c (inside hc)
        have inside := part.subset
        obtain rfl := none before hb fun c hc => inside (by simp [hc])
        obtain rfl := none after ha fun c hc => inside (by simp [hc])
        exact opaq.returns part
      rw [spaceEquals_of_not_mem equals, kept, words_of_isWord ⟨opaq.ne_nil, opaq.unblank⟩]
      rfl

end Source

end ProtoSchema
