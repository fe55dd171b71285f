import ProtoSchema.Proofs.Source.Phrases
import ProtoSchema.Statement.Parts

/-!
# Proofs/Source/Annotation — what makes a comment an annotation

Whether a comment annotates an import is decided by how it starts (`annotatedPackage?_ne_none_iff`).
None of the steps from the text of a comment to its statement makes it start so if it did not before
(`annotatedPackage?_normalize`).
-/

namespace ProtoSchema

open Text Source Text.Letterwise

/-! ## Names and blanks -/

/-- A blank is no part of a name. -/
theorem isPackageChar_of_isBlank {c : Char} (h : isBlank c = true) : isPackageChar c = false := by
  have dot : c ≠ '.' := by
    rintro rfl
    exact absurd h (by decide)
  simp [isPackageChar, isWordChar_of_isBlank h, dot]

theorem not_isBlank_of_isPackageChar {c : Char} (h : isPackageChar c = true) :
    isBlank c = false := by
  refine Bool.eq_false_iff.2 fun blank => ?_
  rw [isPackageChar_of_isBlank blank] at h
  exact nomatch h

/-! ## The start of an annotation -/

/-- Blanks, with at most one colon among them. -/
def IsColonGap (cs : List Char) : Prop :=
  (∀ c ∈ cs, isBlank c = true)
    ∨ ∃ a b, (∀ c ∈ a, isBlank c = true) ∧ (∀ c ∈ b, isBlank c = true) ∧ cs = a ++ ':' :: b

/-- **How a comment that is an annotation starts**: the word `package`, a gap and the first letter
of a name. -/
def IsAnnotation (m : List Char) : Prop :=
  ∃ before gap first, (∀ c ∈ before, isBlank c = true) ∧ IsColonGap gap
    ∧ isPackageChar first = true ∧ (gap = [] → isWordChar first = false)
    ∧ m = before ++ ("package".toList ++ (gap ++ [first]))

theorem IsColonGap.not_mem {cs : List Char} (h : IsColonGap cs) {d : Char}
    (blank : isBlank d = false) (colon : d ≠ ':') : d ∉ cs := by
  intro mem
  rcases h with h | ⟨a, b, ha, hb, rfl⟩
  · exact absurd (h d mem) (by simp [blank])
  · rcases List.mem_append.1 mem with mem | mem
    · exact absurd (ha d mem) (by simp [blank])
    · rcases List.mem_cons.1 mem with rfl | mem
      · exact colon rfl
      · exact absurd (hb d mem) (by simp [blank])

/-- Characters that an annotation does not start with. -/
theorem IsAnnotation.not_mem {m : List Char} (h : IsAnnotation m) {d : Char}
    (blank : isBlank d = false) (colon : d ≠ ':') (name : isPackageChar d = false) : d ∉ m := by
  obtain ⟨before, gap, first, hb, hg, hf, -, rfl⟩ := h
  have word : ∀ c ∈ "package".toList, isPackageChar c = true := by decide
  intro mem
  rcases List.mem_append.1 mem with mem | mem
  · exact absurd (hb d mem) (by simp [blank])
  rcases List.mem_append.1 mem with mem | mem
  · exact absurd (word d mem) (by simp [name])
  rcases List.mem_append.1 mem with mem | mem
  · exact hg.not_mem blank colon mem
  · obtain rfl := List.mem_singleton.1 mem
    exact absurd hf (by simp [name])

/-- It ends in the first character of a name. -/
theorem IsAnnotation.getLast? {m : List Char} (h : IsAnnotation m) :
    ∀ c, m.getLast? = some c → isBlank c = false := by
  obtain ⟨before, gap, first, -, -, hf, -, rfl⟩ := h
  intro c last
  rw [← List.append_assoc, ← List.append_assoc, List.getLast?_concat] at last
  exact not_isBlank_of_isPackageChar (Option.some.inj last ▸ hf)

theorem isPackageChar_colon : isPackageChar ':' = false := by decide +kernel

theorem isWordChar_of_not_isPackageChar {c : Char} (h : isPackageChar c = false) :
    isWordChar c = false := by
  simp only [isPackageChar, Bool.or_eq_false_iff] at h
  exact h.1

/-- What `annotatedPackage?` looks at after the word `package`. -/
def afterGap (rest : List Char) : List Char :=
  match trimStart rest with
  | ':' :: rest => trimStart rest
  | rest => rest

theorem annotatedPackage?_eq (k : List Char) :
    annotatedPackage? (String.ofList ('/' :: '/' :: k))
      = match "package".toList.isPrefixOf? (trimStart k) with
        | none => none
        | some rest =>
          if rest.head?.any isWordChar then none
          else match (afterGap rest).takeWhile isPackageChar with
            | [] => none
            | name => some (String.ofList name) := by
  have chars : (String.ofList ('/' :: '/' :: k)).toList.drop 2 = k := by
    rw [String.toList_ofList]
    rfl
  rw [annotatedPackage?, chars]
  rfl

/-- The gap after the word and what follows it. -/
theorem exists_gap (rest : List Char) : ∃ gap, IsColonGap gap ∧ rest = gap ++ afterGap rest := by
  have outer := List.takeWhile_append_dropWhile (p := isBlank) (l := rest)
  unfold afterGap
  split
  · next tail colon =>
    have inner := List.takeWhile_append_dropWhile (p := isBlank) (l := tail)
    refine ⟨rest.takeWhile isBlank ++ ':' :: tail.takeWhile isBlank, .inr ⟨_, _,
      fun _ => List.mem_takeWhile_imp, fun _ => List.mem_takeWhile_imp, rfl⟩, ?_⟩
    conv_lhs => rw [← outer]
    rw [← trimStart, colon, List.append_assoc, List.cons_append, trimStart, inner]
  · exact ⟨_, .inl fun _ => List.mem_takeWhile_imp, outer.symm⟩

theorem afterGap_append {gap : List Char} (h : IsColonGap gap) {first : Char}
    (name : isPackageChar first = true) (rest : List Char) :
    afterGap (gap ++ first :: rest) = first :: rest := by
  have blank := not_isBlank_of_isPackageChar name
  have drop : ∀ {a : List Char}, (∀ c ∈ a, isBlank c = true) → ∀ {d : Char}, isBlank d = false →
      ∀ cs, trimStart (a ++ d :: cs) = d :: cs := fun ha _ hd cs => by
    rw [trimStart, List.dropWhile_append_of_pos ha, ← trimStart, trimStart_of_head hd]
  rcases h with blanks | ⟨a, b, ha, hb, rfl⟩
  · unfold afterGap
    rw [drop blanks blank]
    split
    · next same =>
      obtain ⟨rfl, -⟩ := List.cons.inj same
      exact absurd name (by simp [isPackageChar_colon])
    · rfl
  · rw [afterGap, List.append_assoc, List.cons_append, drop ha (by decide)]
    exact drop hb blank rest

/-- No word is continued by a gap, nor by a name behind an empty one. -/
theorem head?_any_isWordChar_gap {gap : List Char} (h : IsColonGap gap) {first : Char}
    (joined : gap = [] → isWordChar first = false) (rest : List Char) :
    (gap ++ first :: rest).head?.any isWordChar = false := by
  cases gap with
  | nil => simpa using joined rfl
  | cons c gap =>
    have other : isPackageChar c = false := by
      by_cases colon : c = ':'
      · exact colon ▸ isPackageChar_colon
      · refine isPackageChar_of_isBlank ?_
        by_contra blank
        exact h.not_mem (by simpa using blank) colon List.mem_cons_self
    simpa using isWordChar_of_not_isPackageChar other

/-- A comment that is an annotation starts like one. -/
theorem exists_isAnnotation_of_annotatedPackage? {k : List Char}
    (some : annotatedPackage? (String.ofList ('/' :: '/' :: k)) ≠ none) :
    ∃ m, IsAnnotation m ∧ m <+: k := by
  rw [annotatedPackage?_eq] at some
  split at some
  · exact absurd rfl some
  · next rest word =>
    split_ifs at some with joined
    · exact absurd rfl some
    obtain ⟨gap, hg, split⟩ := exists_gap rest
    cases after : afterGap rest with
    | nil => simp [after] at some
    | cons first tail =>
      have name : isPackageChar first = true := by
        by_contra other
        rw [after, List.takeWhile_cons_of_neg other] at some
        exact some rfl
      have word := List.isPrefixOf?_eq_some_iff_append_eq.1 word
      refine ⟨_, ⟨k.takeWhile isBlank, gap, first, fun _ => List.mem_takeWhile_imp, hg, name,
        ?_, rfl⟩, tail, ?_⟩
      · rintro rfl
        rw [split, after] at joined
        simpa using joined
      · have outer := List.takeWhile_append_dropWhile (p := isBlank) (l := k)
        conv_rhs => rw [← outer, ← trimStart, ← word, split, after]
        simp only [List.append_assoc, List.cons_append, List.nil_append]

/-- A comment that starts like an annotation is one. -/
theorem IsAnnotation.annotates {m : List Char} (h : IsAnnotation m) (tail : List Char) :
    annotatedPackage? (String.ofList ('/' :: '/' :: (m ++ tail))) ≠ none := by
  obtain ⟨before, gap, first, hb, hg, name, joined, rfl⟩ := h
  have start : trimStart (before ++ ("package".toList ++ (gap ++ [first])) ++ tail)
      = "package".toList ++ (gap ++ first :: tail) := by
    rw [List.append_assoc, trimStart, List.dropWhile_append_of_pos hb]
    simp only [List.append_assoc, List.cons_append, List.nil_append]
    exact trimStart_of_head (c := 'p') (by decide) _
  rw [annotatedPackage?_eq, start, List.isPrefixOf?_eq_some_iff_append_eq.2 rfl]
  simp only [head?_any_isWordChar_gap hg joined, Bool.false_eq_true, if_false,
    afterGap_append hg name, List.takeWhile_cons_of_pos name]
  simp

/-- **A comment is an annotation just if it starts like one.** -/
theorem annotatedPackage?_ne_none_iff {k : List Char} :
    annotatedPackage? (String.ofList ('/' :: '/' :: k)) ≠ none
      ↔ ∃ m, IsAnnotation m ∧ m <+: k := by
  refine ⟨exists_isAnnotation_of_annotatedPackage?, ?_⟩
  rintro ⟨m, annotation, tail, rfl⟩
  exact annotation.annotates tail

/-! ## Blanks in a comment -/

section Squeeze

theorem trimStart_cons_blank {c : Char} (hc : isBlank c = true) (cs : List Char) :
    trimStart (c :: cs) = trimStart cs := List.dropWhile_cons_of_pos hc

/-- What is squeezed after a blank starts with a space or is empty. -/
theorem squeeze_true_eq (cs : List Char) :
    squeeze true cs = [] ∨ ∃ tail, squeeze true cs = ' ' :: tail := by
  rw [(squeeze_spec cs).2]
  cases words cs with
  | nil => exact .inl rfl
  | cons w ws => exact .inr ⟨_, rfl⟩

theorem trimStart_squeeze : ∀ (blank : Bool) (cs : List Char),
    trimStart (squeeze blank cs) = squeeze false (trimStart cs)
  | _, [] => rfl
  | blank, c :: cs => by
      by_cases hc : isBlank c = true
      · rw [squeeze_cons_blank hc, trimStart_cons_blank hc, trimStart_squeeze true cs]
      · have hc : isBlank c = false := by simpa using hc
        rw [trimStart_of_head hc, squeeze_cons hc]
        cases blank with
        | false => rw [squeeze_cons hc, trimStart_of_head hc]
        | true =>
          rw [squeeze_true_cons hc, trimStart_cons_blank isBlank_space, trimStart_of_head hc]

/-- A word stands at the start of a squeezed text just if it does in the text. -/
theorem isPrefixOf?_squeeze : ∀ {w : List Char}, (∀ c ∈ w, isBlank c = false) →
    ∀ cs, w.isPrefixOf? (squeeze false cs) = (w.isPrefixOf? cs).map (squeeze false)
  | [], _, cs => rfl
  | d :: w, hw, [] => rfl
  | d :: w, hw, c :: cs => by
      have ih := isPrefixOf?_squeeze fun e he => hw e (List.mem_cons_of_mem d he)
      have hd : isBlank d = false := hw d List.mem_cons_self
      by_cases hc : isBlank c = true
      · have other : d ≠ c := by
          rintro rfl
          simp [hd] at hc
        have space : d ≠ ' ' := by
          rintro rfl
          exact absurd hd (by decide)
        rw [squeeze_cons_blank hc]
        rcases squeeze_true_eq cs with none | ⟨tail, some⟩
        · rw [none]
          simp [List.isPrefixOf?, other]
        · rw [some]
          simp [List.isPrefixOf?, other, space]
      · have hc : isBlank c = false := by simpa using hc
        rw [squeeze_cons hc]
        by_cases same : d = c
        · subst same
          simpa [List.isPrefixOf?] using ih cs
        · simp [List.isPrefixOf?, same]

theorem takeWhile_squeeze {p : Char → Bool} (hp : ∀ c, isBlank c = true → p c = false) :
    ∀ cs, (squeeze false cs).takeWhile p = cs.takeWhile p
  | [] => rfl
  | c :: cs => by
      by_cases hc : isBlank c = true
      · rw [squeeze_cons_blank hc, List.takeWhile_cons_of_neg (by simp [hp c hc])]
        rcases squeeze_true_eq cs with none | ⟨tail, some⟩
        · rw [none]
          rfl
        · rw [some, List.takeWhile_cons_of_neg (by simp [hp ' ' isBlank_space])]
      · have hc : isBlank c = false := by simpa using hc
        rw [squeeze_cons hc, List.takeWhile_cons, List.takeWhile_cons, takeWhile_squeeze hp cs]

theorem head?_any_squeeze {p : Char → Bool} (hp : ∀ c, isBlank c = true → p c = false)
    (cs : List Char) : (squeeze false cs).head?.any p = cs.head?.any p := by
  cases cs with
  | nil => rfl
  | cons c cs =>
    by_cases hc : isBlank c = true
    · rw [squeeze_cons_blank hc]
      rcases squeeze_true_eq cs with none | ⟨tail, some⟩
      · simp [none, hp c hc]
      · simp [some, hp c hc, hp ' ' isBlank_space]
    · rw [squeeze_cons (by simpa using hc)]
      rfl

theorem afterGap_squeeze (rest : List Char) :
    afterGap (squeeze false rest) = squeeze false (afterGap rest) := by
  unfold afterGap
  rw [trimStart_squeeze]
  cases start : trimStart rest with
  | nil => rfl
  | cons c cs =>
    have hc : isBlank c = false := by
      have := List.head?_dropWhile_not isBlank rest
      rw [← trimStart, start] at this
      exact this
    rw [squeeze_cons hc]
    by_cases colon : c = ':'
    · subst colon
      exact trimStart_squeeze false cs
    · split
      · next same => exact absurd (List.cons.inj same).1 colon
      · split
        · next same => exact absurd (List.cons.inj same).1 colon
        · rw [squeeze_cons hc]

/-- **How wide the blanks of a comment are does not matter.** -/
theorem annotatedPackage?_squeeze (k : List Char) :
    annotatedPackage? (String.ofList ('/' :: '/' :: squeeze true k))
      = annotatedPackage? (String.ofList ('/' :: '/' :: k)) := by
  have word : ∀ c ∈ "package".toList, isBlank c = false := by decide
  have blank : ∀ c, isBlank c = true → isWordChar c = false := fun c hc =>
    isWordChar_of_not_isPackageChar (isPackageChar_of_isBlank hc)
  rw [annotatedPackage?_eq, annotatedPackage?_eq, trimStart_squeeze, isPrefixOf?_squeeze word]
  cases "package".toList.isPrefixOf? (trimStart k) with
  | none => rfl
  | some rest =>
    simp only [Option.map_some, head?_any_squeeze blank, afterGap_squeeze,
      takeWhile_squeeze fun c => isPackageChar_of_isBlank]

end Squeeze

/-! ## Comments in normal form -/

/-- Spacing the equals signs of a text leaves what it starts with before the first of them. -/
theorem prefix_of_prefix_spaceEquals {k : List Char} : ∀ {m : List Char}, '=' ∉ m →
    (∀ c, m.getLast? = some c → isBlank c = false) → m <+: spaceEquals k → m <+: k := by
  induction k with
  | nil => exact fun _ _ start => start
  | cons c k ih =>
    intro m free ends start
    cases m with
    | nil => exact List.nil_prefix
    | cons d m =>
      obtain ⟨hd, free⟩ := List.ne_and_not_mem_of_not_mem_cons free
      by_cases equals : c = '='
      · subst equals
        change d :: m <+: ' ' :: '=' :: ' ' :: spaceEquals k at start
        obtain ⟨rfl : d = ' ', rest⟩ := List.cons_prefix_cons.1 start
        cases m with
        | nil => exact absurd (ends ' ' rfl) (by decide)
        | cons e m =>
          obtain ⟨rfl : e = '=', -⟩ := List.cons_prefix_cons.1 rest
          exact absurd (by simp) free
      · have copied : spaceEquals (c :: k) = c :: spaceEquals k := by simp [spaceEquals, equals]
        rw [copied] at start
        obtain ⟨rfl, rest⟩ := List.cons_prefix_cons.1 start
        refine List.cons_prefix_cons.2 ⟨rfl, ih free ?_ rest⟩
        intro e last
        refine ends e ?_
        cases m with
        | nil => simp at last
        | cons f m => rwa [List.getLast?_cons_cons]

/-- The statement of a comment. -/
theorem normalize_comment (k : List Char) :
    normalize ('/' :: '/' :: ' ' :: k)
      = '/' :: '/' :: squeeze true (replaceAll returnsBetween (spaceEquals k)) := by
  have copied : replaceAll returnsBetween (spaceEquals ('/' :: '/' :: ' ' :: k))
      = '/' :: '/' :: ' ' :: replaceAll returnsBetween (spaceEquals k) :=
    (copies_returnsBetween (by decide) : returnsBetween.Copies ['/', '/', ' ']) _
  rw [Source.normalize, copied, (squeeze_spec _).2, collapse]
  change unwords (words (['/', '/'] ++ ' ' :: _)) = _
  rw [words_append_blank isBlank_space]
  exact unwords_eq_append_flatMap _ _

/-- **A comment whose statement is an annotation is one itself.** -/
theorem annotatedPackage?_normalize {k : List Char}
    (h : annotatedPackage? (String.ofList ('/' :: '/' :: k)) = none) :
    annotatedPackage? (String.ofList (normalize ('/' :: '/' :: ' ' :: k))) = none := by
  rw [normalize_comment, annotatedPackage?_squeeze]
  by_contra some
  obtain ⟨m, annotation, start⟩ := annotatedPackage?_ne_none_iff.1 some
  have closing := annotation.not_mem (d := ')') (by decide) (by decide) (by decide +kernel)
  have equals := annotation.not_mem (d := '=') (by decide) (by decide) (by decide +kernel)
  have spaced : m <+: spaceEquals k :=
    (returnsBetween_finds.replaced _).prefix_of_not_mem head?_of_isReturns rfl closing start
  exact annotatedPackage?_ne_none_iff.2
    ⟨m, annotation, prefix_of_prefix_spaceEquals equals annotation.getLast? spaced⟩ h

end ProtoSchema
