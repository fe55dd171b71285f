import Mathlib.Data.List.Chain
import ProtoSchema.Proofs.Source.Spacing

/-!
# Proofs/Source/NormalForm — the normal form of a normal form

The normal form of a text is made in three steps: equals signs are spaced, then `returns`, and then
the words are put side by side.  No step changes the normal form of the text that it is given
(`sameForm_spaceEquals`, `sameForm_replaced`, `normalize_collapse`), so a normal form is its own
(`normalize_normalize`).  Its blanks are single spaces (`singleSpaced_normalize`).
-/

namespace ProtoSchema

open Text

/-! ## Single spaces -/

namespace Text

/-- **The blanks of a text are single spaces**, and none of them is at an end. -/
structure SingleSpaced (cs : List Char) : Prop where
  space : ∀ c ∈ cs, isBlank c = true → c = ' '
  single : Unpaired ' ' ' ' cs
  start : cs.head? ≠ some ' '
  finish : cs.getLast? ≠ some ' '

/-- **A text without blanks is single spaced**, a word for instance. -/
theorem SingleSpaced.of_forall_mem {w : List Char} (h : ∀ c ∈ w, isBlank c = false) :
    SingleSpaced w := by
  have free : ' ' ∉ w := fun mem => absurd (h _ mem) (by decide)
  refine ⟨fun c hc blank => ?_, unpaired_of_not_mem free, fun first => ?_, fun last => ?_⟩
  · exact nomatch (h c hc).symm.trans blank
  · exact free (List.mem_of_head? first)
  · exact free (List.mem_of_getLast? last)

/-- Two texts are single spaced with a space between them. -/
theorem SingleSpaced.append {a b : List Char} (ha : SingleSpaced a) (hb : SingleSpaced b)
    (na : a ≠ []) (nb : b ≠ []) : SingleSpaced (a ++ ' ' :: b) where
  space := by
    intro c hc blank
    rcases List.mem_append.1 hc with hc | hc
    · exact ha.space c hc blank
    · rcases List.mem_cons.1 hc with rfl | hc
      · rfl
      · exact hb.space c hc blank
  single := ha.single.append (unpaired_cons.2 ⟨fun _ => hb.start, hb.single⟩)
    fun last => absurd last ha.finish
  start := by
    rw [List.head?_append_of_ne_nil a na]
    exact ha.start
  finish := by
    rw [List.getLast?_append_of_ne_nil a (List.cons_ne_nil _ _), List.getLast?_cons_of_ne_nil nb]
    exact hb.finish

theorem singleSpaced_unwords : ∀ {ws : List (List Char)}, (∀ w ∈ ws, IsWord w) →
    SingleSpaced (unwords ws)
  | [], _ => .of_forall_mem (by simp [unwords])
  | [w], h => by simpa [unwords] using SingleSpaced.of_forall_mem (h w (by simp)).2
  | w :: v :: ws, h => by
      have word := h w (by simp)
      have rest := singleSpaced_unwords fun u hu => h u (List.mem_cons_of_mem w hu)
      rw [unwords_cons (by simp)]
      refine (SingleSpaced.of_forall_mem word.2).append rest word.1 ?_
      rw [unwords_eq_append_flatMap]
      exact List.append_ne_nil_of_left_ne_nil (h v (by simp)).1 _

theorem singleSpaced_collapse (cs : List Char) : SingleSpaced (collapse cs) :=
  singleSpaced_unwords fun _ => isWord_of_mem_words

end Text

/-! ## Steps that keep the normal form -/

namespace Source

variable {p cs ds : List Char}

theorem SameForm.refl (cs : List Char) : SameForm cs cs := fun _ => rfl

theorem SameForm.trans {a b c : List Char} (h : SameForm a b) (h' : SameForm b c) :
    SameForm a c := fun rest => (h rest).trans (h' rest)

/-- **Spacing the equals signs keeps the normal form.** -/
theorem sameForm_spaceEquals (cs : List Char) : SameForm (spaceEquals cs) cs := by
  induction cs using List.reverseRecOn with
  | nil => exact .refl []
  | append_singleton cs c ih =>
    rw [spaceEquals_append]
    by_cases equals : c = '='
    · subst equals
      have signs : SameForm (spaceEquals cs ++ spaceEquals ['=']) (spaceEquals cs ++ ['=']) :=
        sameForm_equals (u := [' ']) (v := [' ']) forall_mem_space forall_mem_space _
      exact signs.trans (ih.append ['='])
    · have kept : spaceEquals [c] = [c] := spaceEquals_of_not_mem (by simpa using Ne.symm equals)
      rw [kept]
      exact ih.append [c]

/-- A phrase has no closing parenthesis after its first character. -/
theorem IsReturns.not_mem_tail (h : IsReturns (')' :: p)) : ')' ∉ p := by
  obtain ⟨before, after, hb, ha, same⟩ := h
  obtain ⟨-, rfl⟩ := List.cons.inj same
  have before : ')' ∉ before := not_mem_of_blank hb (by decide)
  have after : ')' ∉ after := not_mem_of_blank ha (by decide)
  simp [before, after]

/-- **A phrase is replaced wherever it stands.** -/
theorem replaceAll_returnsBetween_phrase (h : IsReturns p) (a b : List Char) :
    replaceAll returnsBetween (a ++ (p ++ b))
      = replaceAll returnsBetween a ++ (") returns (".toList ++ replaceAll returnsBetween b) := by
  obtain ⟨p, rfl⟩ := List.head?_eq_some_iff.1 (head?_of_isReturns p h)
  rw [returnsBetween_finds.replaceAll_append, returnsBetween_finds.replaceAll_phrase h]
  -- A phrase that starts before this one would hold the parenthesis that this one starts with.
  rintro s t hs ht - ⟨rest, split⟩ phrase
  obtain ⟨c, t, rfl⟩ := List.exists_cons_of_ne_nil ht
  obtain ⟨rfl, -⟩ := List.cons.inj split
  obtain ⟨d, s, rfl⟩ := List.exists_cons_of_ne_nil hs
  obtain rfl : d = ')' := Option.some.inj (head?_of_isReturns _ phrase)
  exact phrase.not_mem_tail (by simp)

/-- What is put for a phrase is a phrase. -/
theorem isReturns_replacement : IsReturns ") returns (".toList :=
  ⟨[' '], [' '], forall_mem_space, forall_mem_space, rfl⟩

theorem spaceEquals_of_isReturns (h : IsReturns p) : spaceEquals p = p := by
  obtain ⟨before, after, hb, ha, rfl⟩ := h
  have before : '=' ∉ before := not_mem_of_blank hb (by decide)
  have after : '=' ∉ after := not_mem_of_blank ha (by decide)
  exact spaceEquals_of_not_mem (by simp [before, after])

/-- Phrases are alike. -/
theorem sameForm_returns (h : IsReturns p) (a : List Char) :
    SameForm (a ++ ") returns (".toList) (a ++ p) := fun b => by
  have found : ∀ {q : List Char}, IsReturns q → normalize (a ++ q ++ b)
      = collapse (replaceAll returnsBetween (spaceEquals a)
        ++ (") returns (".toList ++ replaceAll returnsBetween (spaceEquals b))) := fun hq => by
    rw [normalize, List.append_assoc, spaceEquals_append, spaceEquals_append,
      spaceEquals_of_isReturns hq, replaceAll_returnsBetween_phrase hq]
  rw [found h, found isReturns_replacement]

/-- **Replacing phrases keeps the normal form.** -/
theorem sameForm_replaced (h : Replaced IsReturns ") returns (".toList cs ds) (a : List Char) :
    SameForm (a ++ ds) (a ++ cs) := by
  induction h generalizing a with
  | nil => exact .refl _
  | copy c _ ih =>
    have rest := ih (a ++ [c])
    rwa [List.append_assoc, List.append_assoc] at rest
  | replace hp _ ih =>
    rw [← List.append_assoc, ← List.append_assoc]
    exact (ih _).trans ((sameForm_returns hp a).append _)

/-- One space for a stretch of blanks keeps the normal form, also of what stands before it. -/
theorem normalize_append_squeeze (a cs : List Char) :
    normalize (a ++ squeeze false cs) = normalize (a ++ cs)
      ∧ normalize (a ++ squeeze true cs) = normalize (a ++ ' ' :: cs) := by
  induction cs generalizing a with
  | nil =>
    have blanks := normalize_append_blanks forall_mem_space a
    exact ⟨rfl, by rw [squeeze, List.append_nil, blanks]⟩
  | cons c cs ih =>
    by_cases hc : isBlank c = true
    · rw [squeeze_cons_blank hc, squeeze_cons_blank hc, (ih a).2]
      have one : SameForm (a ++ [' ']) (a ++ [c]) :=
        sameForm_respace (by simp) (by simp) forall_mem_space (by simp [hc]) a
      have two : SameForm (a ++ [' ']) (a ++ [' ', c]) :=
        sameForm_respace (by simp) (by simp) forall_mem_space (by simp [hc, isBlank_space]) a
      exact ⟨by simpa using one cs, by simpa using two cs⟩
    · have hc : isBlank c = false := by simpa using hc
      rw [squeeze_cons hc, squeeze_true_cons hc]
      exact ⟨by simpa using (ih (a ++ [c])).1, by simpa using (ih (a ++ [' ', c])).1⟩

/-- **Putting words side by side keeps the normal form.** -/
theorem normalize_collapse (cs : List Char) : normalize (collapse cs) = normalize cs := by
  have spaced : normalize (squeeze true cs) = normalize (collapse cs) := by
    rw [(squeeze_spec cs).2, collapse]
    cases words cs with
    | nil => rfl
    | cons w ws =>
      rw [unwords_eq_append_flatMap]
      exact normalize_blanks_append forall_mem_space _
  rw [← spaced]
  exact ((normalize_append_squeeze [] cs).2).trans (normalize_blanks_append forall_mem_space cs)

/-- **A normal form is its own normal form.** -/
theorem normalize_normalize (cs : List Char) : normalize (normalize cs) = normalize cs := by
  have spaced := sameForm_spaceEquals cs []
  have replaced := sameForm_replaced (returnsBetween_finds.replaced (spaceEquals cs)) [] []
  simp only [List.append_nil, List.nil_append] at spaced replaced
  calc normalize (normalize cs)
      = normalize (replaceAll returnsBetween (spaceEquals cs)) := normalize_collapse _
    _ = normalize (spaceEquals cs) := replaced
    _ = normalize cs := spaced

theorem singleSpaced_normalize (cs : List Char) : SingleSpaced (normalize cs) :=
  singleSpaced_collapse _

end Source

end ProtoSchema
