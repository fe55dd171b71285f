import Mathlib.Data.List.TakeWhile
import ProtoSchema.Proofs.Source.Normal

/-!
# Proofs/Source/Phrases — the phrases that are replaced in a schema text

Three rules rewrite a schema text: they erase block comments, end a statement at an empty body and
space `returns` between parentheses.  Each finds the phrases of one class (`blockComment_finds`,
`emptyBody_finds`, `returnsBetween_finds`), and what it does elsewhere is read off that class.
-/

namespace ProtoSchema.Source

open Text

/-! ## Stretches of characters -/

section Stretches

variable {p : Char → Bool} {u : List Char} {d : Char}

theorem drop_length_takeWhile (p : Char → Bool) (cs : List Char) :
    cs.drop (cs.takeWhile p).length = cs.dropWhile p := by
  have behind : (cs.takeWhile p ++ cs.dropWhile p).drop (cs.takeWhile p).length
      = cs.dropWhile p := List.drop_left
  rwa [List.takeWhile_append_dropWhile] at behind

theorem takeWhile_append_cons (hu : ∀ c ∈ u, p c = true) (hd : p d = false) (rest : List Char) :
    (u ++ d :: rest).takeWhile p = u := by
  rw [List.takeWhile_append_of_pos hu, List.takeWhile_cons_of_neg (by simp [hd]), List.append_nil]

/-- What starts a text and holds a certain character no more starts it before that character. -/
theorem prefix_of_prefix_append_cons {m a b : List Char} (hd : d ∉ m) (h : m <+: a ++ d :: b) :
    m <+: a := by
  by_cases short : m.length ≤ a.length
  · exact List.prefix_of_prefix_length_le h (List.prefix_append a _) short
  · have long : a ++ [d] <+: m := by
      refine List.prefix_of_prefix_length_le ⟨b, by simp⟩ h ?_
      rw [List.length_append, List.length_singleton]
      omega
    exact absurd (long.subset (by simp)) hd

end Stretches

/-! ## Empty bodies -/

theorem isBlank_of_isGap {c : Char} (h : isGap c = true) : isBlank c = true := by
  simp only [isGap, Bool.or_eq_true, decide_eq_true_eq] at h
  rcases h with rfl | rfl <;> decide

/-- **An empty body after a closing parenthesis**, the brace on the line of the parenthesis. -/
def IsEmptyBody (p : List Char) : Prop :=
  ∃ gap inner, (∀ c ∈ gap, isGap c = true) ∧ (∀ c ∈ inner, isBlank c = true)
    ∧ p = ')' :: (gap ++ '{' :: (inner ++ ['}']))

/-- No empty body has a parenthesis after its first character. -/
theorem IsEmptyBody.not_mem_tail {p : List Char} (h : IsEmptyBody (')' :: p)) : ')' ∉ p := by
  obtain ⟨gap, inner, hg, hi, same⟩ := h
  obtain ⟨-, rfl⟩ := List.cons.inj same
  have gap : ')' ∉ gap := fun mem => absurd (hg _ mem) (by decide)
  have inner : ')' ∉ inner := fun mem => absurd (hi _ mem) (by decide)
  simp [gap, inner]

/-- It holds blanks and its signs only. -/
theorem IsEmptyBody.not_mem {p : List Char} (h : IsEmptyBody p) {d : Char}
    (visible : isBlank d = false) (sign : d ∉ [')', '{', '}']) : d ∉ p := by
  obtain ⟨gap, inner, hg, hi, rfl⟩ := h
  have gap : d ∉ gap := not_mem_of_blank (fun c hc => isBlank_of_isGap (hg c hc)) visible
  have inner : d ∉ inner := not_mem_of_blank hi visible
  simpa [gap, inner] using sign

theorem IsEmptyBody.closes {p : List Char} (h : IsEmptyBody p) : '}' ∈ p := by
  obtain ⟨gap, inner, -, -, rfl⟩ := h
  simp

theorem emptyBody_phrase {gap inner : List Char} (hg : ∀ c ∈ gap, isGap c = true)
    (hi : ∀ c ∈ inner, isBlank c = true) (rest : List Char) :
    emptyBody (')' :: (gap ++ '{' :: (inner ++ '}' :: rest)))
      = some ([')', ';'], gap.length + inner.length + 2) := by
  simp only [emptyBody, takeWhile_append_cons hg (by decide : isGap '{' = false), List.drop_left,
    takeWhile_append_cons hi (by decide : isBlank '}' = false)]

theorem length_emptyBody (gap inner : List Char) :
    (')' :: (gap ++ '{' :: (inner ++ ['}']))).length = gap.length + inner.length + 2 + 1 := by
  rw [List.length_cons, List.length_append, List.length_cons, List.length_append,
    List.length_singleton]
  omega

theorem emptyBody_finds : emptyBody.Finds IsEmptyBody [')', ';'] where
  fits {cs out more} := by
    constructor
    · intro fit
      unfold emptyBody at fit
      split at fit
      · next cs =>
        dsimp only at fit
        rw [drop_length_takeWhile] at fit
        split at fit
        · next rest opens =>
          rw [drop_length_takeWhile] at fit
          split at fit
          · next rest' closes =>
            obtain ⟨rfl, rfl⟩ := Prod.mk.inj (Option.some.inj fit)
            refine ⟨rfl, _, rest', ⟨cs.takeWhile isGap, rest.takeWhile isBlank,
              fun _ => List.mem_takeWhile_imp, fun _ => List.mem_takeWhile_imp, rfl⟩, ?_, ?_⟩
            · have inner := List.takeWhile_append_dropWhile (p := isBlank) (l := rest)
              have outer := List.takeWhile_append_dropWhile (p := isGap) (l := cs)
              rw [closes] at inner
              rw [opens, ← inner] at outer
              conv_lhs => rw [← outer]
              simp only [List.append_assoc, List.cons_append, List.nil_append]
            · exact length_emptyBody _ _
          · exact nomatch fit
        · exact nomatch fit
      · exact nomatch fit
    · rintro ⟨rfl, _, rest, ⟨gap, inner, hg, hi, rfl⟩, rfl, length⟩
      have more_eq : more = gap.length + inner.length + 2 := by
        rw [length_emptyBody] at length
        omega
      rw [more_eq, ← emptyBody_phrase hg hi rest]
      simp

/-! ## Results of methods -/

/-- **The word `returns` between parentheses**, with blanks around it. -/
def IsReturns (p : List Char) : Prop :=
  ∃ before after, (∀ c ∈ before, isBlank c = true) ∧ (∀ c ∈ after, isBlank c = true)
    ∧ p = ')' :: (before ++ ("returns".toList ++ (after ++ ['('])))

theorem returnsBetween_phrase {before after : List Char} (hb : ∀ c ∈ before, isBlank c = true)
    (ha : ∀ c ∈ after, isBlank c = true) (rest : List Char) :
    returnsBetween (')' :: (before ++ ("returns".toList ++ (after ++ '(' :: rest))))
      = some (") returns (".toList, before.length + 7 + after.length + 1) := by
  have word : "returns".toList = 'r' :: "eturns".toList := rfl
  have prefixed : "returns".toList.isPrefixOf? ("returns".toList ++ (after ++ '(' :: rest))
      = some (after ++ '(' :: rest) := List.isPrefixOf?_eq_some_iff_append_eq.2 rfl
  have start : (before ++ ("returns".toList ++ (after ++ '(' :: rest))).takeWhile isBlank
      = before := by
    rw [word]
    exact takeWhile_append_cons hb (by decide) _
  simp only [returnsBetween, start, List.drop_left, prefixed,
    takeWhile_append_cons ha (by decide : isBlank '(' = false)]

theorem length_returns (before after : List Char) :
    (')' :: (before ++ ("returns".toList ++ (after ++ ['('])))).length
      = before.length + 7 + after.length + 1 + 1 := by
  have word : "returns".toList.length = 7 := rfl
  rw [List.length_cons, List.length_append, List.length_append, List.length_append, word,
    List.length_singleton]
  omega

theorem returnsBetween_finds : returnsBetween.Finds IsReturns ") returns (".toList where
  fits {cs out more} := by
    constructor
    · intro fit
      unfold returnsBetween at fit
      split at fit
      · next cs =>
        dsimp only at fit
        rw [drop_length_takeWhile] at fit
        split at fit
        · next rest word =>
          have word := List.isPrefixOf?_eq_some_iff_append_eq.1 word
          rw [drop_length_takeWhile] at fit
          split at fit
          · next rest' opens =>
            obtain ⟨rfl, rfl⟩ := Prod.mk.inj (Option.some.inj fit)
            refine ⟨rfl, _, rest', ⟨cs.takeWhile isBlank, rest.takeWhile isBlank,
              fun _ => List.mem_takeWhile_imp, fun _ => List.mem_takeWhile_imp, rfl⟩, ?_, ?_⟩
            · have inner := List.takeWhile_append_dropWhile (p := isBlank) (l := rest)
              have outer := List.takeWhile_append_dropWhile (p := isBlank) (l := cs)
              rw [opens] at inner
              rw [← word, ← inner] at outer
              conv_lhs => rw [← outer]
              simp only [List.append_assoc, List.cons_append, List.nil_append]
            · exact length_returns _ _
          · exact nomatch fit
        · exact nomatch fit
      · exact nomatch fit
    · rintro ⟨rfl, _, rest, ⟨before, after, hb, ha, rfl⟩, rfl, length⟩
      have more_eq : more = before.length + 7 + after.length + 1 := by
        rw [length_returns] at length
        omega
      rw [more_eq, ← returnsBetween_phrase hb ha rest]
      simp

theorem getLast?_of_isReturns (p : List Char) (h : IsReturns p) : p.getLast? = some '(' := by
  obtain ⟨before, after, -, -, rfl⟩ := h
  rw [← List.append_assoc, ← List.append_assoc, ← List.cons_append, List.getLast?_concat]

/-- A text without opening parenthesis ends no phrase that starts before it. -/
theorem replaceAll_returns_append {b : List Char} (h : '(' ∉ b) (a : List Char) :
    replaceAll returnsBetween (a ++ b)
      = replaceAll returnsBetween a ++ replaceAll returnsBetween b := by
  refine returnsBetween_finds.replaceAll_append ?_
  rintro s t - ht - ⟨rest, rfl⟩ phrase
  have last := getLast?_of_isReturns _ phrase
  rw [List.getLast?_append_of_ne_nil s ht] at last
  exact h (List.mem_append_left rest (List.mem_of_getLast? last))

/-! ## Block comments -/

/-- **A block comment that its last two characters close**, and none before them. -/
def IsBlockComment (p : List Char) : Prop :=
  ∃ cs, p = '/' :: '*' :: cs ∧ lengthToClose cs = some cs.length

theorem lengthToClose_cons_of_ne {c : Char} {cs : List Char}
    (h : c = '*' → cs.head? ≠ some '/') :
    lengthToClose (c :: cs) = (lengthToClose cs).map (· + 1) := by
  rw [lengthToClose.eq_3]
  rintro rest rfl rfl
  exact h rfl rfl

/-- What follows the first `*/` does not count. -/
theorem lengthToClose_append (rest : List Char) : ∀ {p : List Char} {n : Nat},
    lengthToClose p = some n → lengthToClose (p ++ rest) = some n
  | c :: p, n, h => by
      by_cases close : c = '*' ∧ p.head? = some '/'
      · obtain ⟨rfl, slash⟩ := close
        obtain ⟨q, rfl⟩ := List.head?_eq_some_iff.1 slash
        exact h
      · have apart : c = '*' → p.head? ≠ some '/' := fun star slash => close ⟨star, slash⟩
        rw [lengthToClose_cons_of_ne apart] at h
        obtain ⟨m, closes, rfl⟩ := Option.map_eq_some_iff.1 h
        have ne : p ≠ [] := by
          rintro rfl
          exact nomatch closes
        have apart : c = '*' → (p ++ rest).head? ≠ some '/' := by
          rwa [List.head?_append_of_ne_nil _ ne]
        rw [List.cons_append, lengthToClose_cons_of_ne apart, lengthToClose_append rest closes]
        rfl

/-- The text up to the first `*/`. -/
theorem exists_of_lengthToClose : ∀ {cs : List Char} {n : Nat}, lengthToClose cs = some n →
    ∃ p rest, cs = p ++ rest ∧ p.length = n ∧ lengthToClose p = some p.length
  | c :: cs, n, h => by
      by_cases close : c = '*' ∧ cs.head? = some '/'
      · obtain ⟨rfl, slash⟩ := close
        obtain ⟨q, rfl⟩ := List.head?_eq_some_iff.1 slash
        exact ⟨['*', '/'], q, rfl, Option.some.inj h, rfl⟩
      · have apart : c = '*' → cs.head? ≠ some '/' := fun star slash => close ⟨star, slash⟩
        rw [lengthToClose_cons_of_ne apart] at h
        obtain ⟨m, closes, rfl⟩ := Option.map_eq_some_iff.1 h
        obtain ⟨p, rest, rfl, rfl, whole⟩ := exists_of_lengthToClose closes
        have apart : c = '*' → p.head? ≠ some '/' := fun star slash =>
          apart star (by rw [List.head?_append, slash]; rfl)
        exact ⟨c :: p, rest, rfl, rfl, by rw [lengthToClose_cons_of_ne apart, whole]; rfl⟩

theorem head?_append_star (m : List Char) : (m ++ ['*', '/']).head? = (m ++ ['*']).head? := by
  cases m <;> rfl

/-- **A text that its first closing mark ends** has no other closing mark. -/
theorem lengthToClose_eq_length_iff {cs : List Char} : lengthToClose cs = some cs.length
    ↔ ∃ m, cs = m ++ ['*', '/'] ∧ Unpaired '*' '/' (m ++ ['*']) := by
  constructor
  · intro h
    induction cs with
    | nil => exact nomatch h
    | cons c cs ih =>
      by_cases close : c = '*' ∧ cs.head? = some '/'
      · obtain ⟨rfl, slash⟩ := close
        obtain ⟨q, rfl⟩ := List.head?_eq_some_iff.1 slash
        obtain rfl : q = [] := by simpa [lengthToClose] using h
        exact ⟨[], rfl, by decide⟩
      · have apart : c = '*' → cs.head? ≠ some '/' := fun star slash => close ⟨star, slash⟩
        rw [lengthToClose_cons_of_ne apart] at h
        obtain ⟨n, closes, length⟩ := Option.map_eq_some_iff.1 h
        obtain ⟨m, rfl, free⟩ := ih (by rw [closes, Nat.succ.inj length])
        rw [head?_append_star] at apart
        exact ⟨c :: m, rfl, unpaired_cons.2 ⟨apart, free⟩⟩
  · rintro ⟨m, rfl, free⟩
    induction m with
    | nil => rfl
    | cons c m ih =>
      obtain ⟨apart, free⟩ := unpaired_cons.1 free
      change c = '*' → (m ++ ['*']).head? ≠ some '/' at apart
      rw [← head?_append_star] at apart
      rw [List.cons_append, lengthToClose_cons_of_ne apart, ih free]
      rfl

theorem IsBlockComment.exists_eq {p : List Char} (h : IsBlockComment p) :
    ∃ m, p = ['/', '*'] ++ (m ++ ['*', '/']) := by
  obtain ⟨_, rfl, whole⟩ := h
  obtain ⟨m, rfl, -⟩ := lengthToClose_eq_length_iff.1 whole
  exact ⟨m, rfl⟩

theorem isBlockComment_iff {m : List Char} :
    IsBlockComment (['/', '*'] ++ (m ++ ['*', '/'])) ↔ Unpaired '*' '/' (m ++ ['*']) := by
  constructor
  · rintro ⟨_, same, whole⟩
    obtain rfl : m ++ ['*', '/'] = _ := List.append_cancel_left same
    obtain ⟨n, same, free⟩ := lengthToClose_eq_length_iff.1 whole
    rwa [List.append_cancel_right same]
  · exact fun free => ⟨_, rfl, lengthToClose_eq_length_iff.2 ⟨m, rfl, free⟩⟩

theorem blockComment_finds : blockComment.Finds IsBlockComment [] where
  fits {cs out more} := by
    constructor
    · intro fit
      unfold blockComment at fit
      split at fit
      · next cs =>
        obtain ⟨n, closes, same⟩ := Option.map_eq_some_iff.1 fit
        obtain ⟨rfl, rfl⟩ := Prod.mk.inj same
        obtain ⟨p, rest, rfl, rfl, whole⟩ := exists_of_lengthToClose closes
        exact ⟨rfl, _, rest, ⟨p, rfl, whole⟩, rfl, rfl⟩
      · exact nomatch fit
    · rintro ⟨rfl, _, rest, ⟨p, rfl, whole⟩, rfl, length⟩
      obtain rfl : p.length + 1 = more := Nat.succ.inj length
      have closes := lengthToClose_append rest whole
      change (lengthToClose (p ++ rest)).map _ = _
      rw [closes]
      rfl

/-! ## Characters of normal forms -/

theorem mem_of_mem_collapse {c : Char} (hc : c ≠ ' ') {cs : List Char} (h : c ∈ collapse cs) :
    c ∈ cs := by
  refine forall_mem_intercalate (p := fun d => d ≠ ' ' → d ∈ cs) (by simp) ?_ c h hc
  exact fun w hw d hd _ => (infix_of_mem_words hw).subset hd

/-- The normal form brings in no characters but the space and those of `returns`. -/
theorem not_mem_normalize {c : Char} {cs : List Char} (hc : c ≠ ' ')
    (word : c ∉ ") returns (".toList) (h : c ∉ cs) : c ∉ normalize cs := fun mem => by
  rcases (returnsBetween_finds.replaced (spaceEquals cs)).mem (mem_of_mem_collapse hc mem)
    with mem | mem
  · exact h (mem_of_mem_spaceEquals hc mem)
  · exact word mem

/-- An opening brace at the end of a text is a word of its normal form. -/
theorem normalize_append_brace (cs : List Char) :
    normalize (cs ++ [' ', '{'])
      = unwords (words (replaceAll returnsBetween (spaceEquals cs)) ++ [['{']]) := by
  have parted : replaceAll returnsBetween (spaceEquals cs ++ [' ', '{'])
      = replaceAll returnsBetween (spaceEquals cs) ++ [' ', '{'] :=
    replaceAll_returns_append (by decide) _
  rw [normalize, spaceEquals_append]
  change collapse (replaceAll returnsBetween (spaceEquals cs ++ [' ', '{'])) = _
  rw [parted, collapse, words_append_blank isBlank_space]
  rfl

/-- The normal form of text that opens a body ends with the brace, and has nothing before it but
blanks and what the normal form of the text has. -/
theorem exists_normalize_append_brace (cs : List Char) :
    ∃ front, normalize (cs ++ [' ', '{']) = front ++ ['{']
      ∧ ∀ c ∈ front, c = ' ' ∨ c ∈ normalize cs := by
  rw [normalize_append_brace, normalize, collapse]
  generalize words (replaceAll returnsBetween (spaceEquals cs)) = ws
  cases ws with
  | nil => exact ⟨[], rfl, by simp⟩
  | cons w ws =>
    refine ⟨unwords (w :: ws) ++ [' '], ?_, fun c hc => ?_⟩
    · rw [unwords_append_singleton _ (by simp), List.append_assoc]
      rfl
    · exact (List.mem_append.1 hc).symm.imp_left List.mem_singleton.1

/-! ## Pairs of slashes

None of the steps from a text to its statements brings two slashes together. -/

theorem unpaired_unwords {a b : Char} (ha : ' ' ≠ a) (hb : ' ' ≠ b) :
    ∀ {ws : List (List Char)}, (∀ w ∈ ws, Unpaired a b w) → Unpaired a b (unwords ws)
  | [], _ => List.isChain_nil
  | [w], h => by simpa [unwords] using h w (by simp)
  | w :: v :: ws, h => by
      have rest := unpaired_unwords ha hb fun u hu => h u (List.mem_cons_of_mem w hu)
      rw [unwords_cons (by simp)]
      exact (h w (by simp)).append (unpaired_cons.2 ⟨fun e => absurd e ha, rest⟩)
        fun _ e => hb (Option.some.inj e)

theorem head?_spaceEquals {c : Char} (hc : c ≠ ' ') {cs : List Char}
    (h : (spaceEquals cs).head? = some c) : cs.head? = some c := by
  cases cs with
  | nil => exact h
  | cons d cs =>
    rw [spaceEquals, List.flatMap_cons] at h
    split_ifs at h
    · exact absurd (Option.some.inj h).symm hc
    · exact h

theorem unpaired_spaceEquals : ∀ {cs : List Char}, Unpaired '/' '/' cs →
    Unpaired '/' '/' (spaceEquals cs)
  | [], h => h
  | c :: cs, h => by
      obtain ⟨first, others⟩ := unpaired_cons.1 h
      have rest := unpaired_spaceEquals others
      by_cases equals : c = '='
      · subst equals
        change Unpaired '/' '/' (' ' :: '=' :: ' ' :: spaceEquals cs)
        simp only [unpaired_cons, rest, and_true]
        simp
      · have copied : spaceEquals (c :: cs) = c :: spaceEquals cs := by
          simp [spaceEquals, equals]
        rw [copied]
        exact unpaired_cons.2 ⟨fun slash next => first slash (head?_spaceEquals (by decide) next),
          rest⟩

theorem head?_of_isEmptyBody (p : List Char) (h : IsEmptyBody p) : p.head? = some ')' := by
  obtain ⟨_, _, -, -, rfl⟩ := h
  rfl

theorem head?_of_isReturns (p : List Char) (h : IsReturns p) : p.head? = some ')' := by
  obtain ⟨_, _, -, -, rfl⟩ := h
  rfl

theorem unpaired_emptyBody {cs : List Char} (h : Unpaired '/' '/' cs) :
    Unpaired '/' '/' (replaceAll emptyBody cs) :=
  (emptyBody_finds.replaced cs).unpaired head?_of_isEmptyBody rfl
    (unpaired_of_not_mem (by decide)) (by decide) h

theorem unpaired_normalize {cs : List Char} (h : Unpaired '/' '/' cs) :
    Unpaired '/' '/' (normalize cs) := by
  have spaced := (returnsBetween_finds.replaced (spaceEquals cs)).unpaired head?_of_isReturns rfl
    (unpaired_of_not_mem (by decide)) (by decide) (unpaired_spaceEquals h)
  exact unpaired_unwords (by decide) (by decide) fun w hw =>
    spaced.of_infix (infix_of_mem_words hw)

/-! ## Texts without comments -/

/-- Without `/*` there are no block comments to erase. -/
theorem eraseBlockComments_of_unpaired {cs : List Char} (h : Unpaired '/' '*' cs) :
    eraseBlockComments cs = cs := by
  refine (blockComment_finds.replaced cs).eq_of_absent ?_
  rintro _ ⟨p, rfl, -⟩ part
  exact unpaired_iff.1 h ((List.prefix_append ['/', '*'] p).isInfix.trans part)

/-- Nor is any that starts before what follows them. -/
theorem eraseBlockComments_append_of_unpaired {cs : List Char} (h : Unpaired '/' '*' cs)
    (last : cs.getLast? ≠ some '/') (rest : List Char) :
    eraseBlockComments (cs ++ rest) = cs ++ eraseBlockComments rest := by
  refine blockComment_finds.copies ?_ h last rest
  rintro _ ⟨tail, rfl, -⟩
  exact ⟨tail, rfl⟩

/-- Without a closing brace there is no empty body. -/
theorem replaceAll_emptyBody_of_not_mem {cs : List Char} (h : '}' ∉ cs) :
    replaceAll emptyBody cs = cs :=
  (emptyBody_finds.replaced cs).eq_of_absent fun _ hp part => h (part.subset hp.closes)

/-- A character that no empty body holds parts what is before it from what follows. -/
theorem replaceAll_emptyBody_append_cons {d : Char} (visible : isBlank d = false)
    (sign : d ∉ [')', '{', '}']) (a b : List Char) :
    replaceAll emptyBody (a ++ d :: b) = replaceAll emptyBody a ++ d :: replaceAll emptyBody b :=
  emptyBody_finds.replaceAll_append_cons (fun _ hp => hp.not_mem visible sign) a b

/-- A text that does not start with two slashes does not start with a comment. -/
theorem dropLeadingComment_of_unmarked {cs : List Char} (h : ¬ ['/', '/'] <+: cs) :
    dropLeadingComment cs = cs := by
  unfold dropLeadingComment
  split
  · next rest => exact absurd ⟨rest, rfl⟩ h
  · rfl

theorem dropLeadingComment_of_unpaired {cs : List Char} (h : Unpaired '/' '/' cs) :
    dropLeadingComment cs = cs :=
  dropLeadingComment_of_unmarked fun mark => unpaired_iff.1 h mark.isInfix

theorem unpaired_trimStart {a b : Char} {cs : List Char} (h : Unpaired a b cs) :
    Unpaired a b (trimStart cs) := h.of_infix (List.dropWhile_suffix isBlank).isInfix

/-- **In a text without comments, only blanks at its start and empty bodies are out of place.** -/
theorem tidy_of_unpaired {cs : List Char} (line : Unpaired '/' '/' cs)
    (block : Unpaired '/' '*' cs) : tidy cs = replaceAll emptyBody (trimStart cs) := by
  rw [tidy, eraseBlockComments_of_unpaired block,
    dropLeadingComment_of_unpaired (unpaired_trimStart line)]

end ProtoSchema.Source
