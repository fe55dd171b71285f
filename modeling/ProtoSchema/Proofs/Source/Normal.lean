import Mathlib.Data.Bool.AllAny
import ProtoSchema.Proofs.Text.Replace
import ProtoSchema.Proofs.Text.Words
import ProtoSchema.Source.Statements

/-!
# Proofs/Source/Normal — texts that are in normal form

A statement that is put together from bare words and equals signs, with one space between
neighbours, is in normal form, and blanks in front of a text do not change its normal form.
-/

namespace ProtoSchema.Source

open Text

/-! ## Bare words -/

/-- A character that neither separates words nor delimits statements, comments or types. -/
def isBareChar (c : Char) : Bool :=
  !isBlank c && !(c = '/' || c = '{' || c = '}' || c = ';' || c = '=' || c = '(' || c = ')')

/-- **A bare word.** -/
def IsBare (w : List Char) : Prop := w ≠ [] ∧ ∀ c ∈ w, isBareChar c = true

/-- A bare word, or an equals sign that stands alone. -/
def IsPart (w : List Char) : Prop := IsBare w ∨ w = ['=']

theorem isBlank_of_isBareChar {c : Char} (h : isBareChar c = true) : isBlank c = false := by
  simp only [isBareChar, Bool.and_eq_true] at h
  simpa using h.1

theorem ne_of_isBareChar {c d : Char} (h : isBareChar c = true) (hd : isBareChar d = false) :
    c ≠ d := fun e => by simp [e ▸ h] at hd

theorem IsBare.isWord {w : List Char} (h : IsBare w) : IsWord w :=
  ⟨h.1, fun c hc => isBlank_of_isBareChar (h.2 c hc)⟩

theorem IsBare.not_mem {w : List Char} (h : IsBare w) {d : Char} (hd : isBareChar d = false) :
    d ∉ w := fun hw => ne_of_isBareChar (h.2 d hw) hd rfl

theorem IsPart.isWord {w : List Char} : IsPart w → IsWord w
  | .inl h => h.isWord
  | .inr h => by subst h; exact ⟨by simp, List.all_iff_forall_prop.1 rfl⟩

/-- What holds of bare characters, of the space and of the equals sign holds of all characters of
a text of parts. -/
theorem forall_mem_unwords_of_isPart {p : Char → Prop} (bare : ∀ c, isBareChar c = true → p c)
    (space : p ' ') (equals : p '=') {ws : List (List Char)} (h : ∀ w ∈ ws, IsPart w) :
    ∀ c ∈ unwords ws, p c := by
  refine forall_mem_intercalate (by simpa using space) fun w hw c hc => ?_
  rcases h w hw with h | rfl
  · exact bare c (h.2 c hc)
  · obtain rfl : c = '=' := by simpa using hc
    exact equals

theorem not_mem_unwords_of_isPart {d : Char} (bare : isBareChar d = false) (space : ' ' ≠ d)
    (equals : '=' ≠ d) {ws : List (List Char)} (h : ∀ w ∈ ws, IsPart w) : d ∉ unwords ws :=
  fun hd => forall_mem_unwords_of_isPart (p := (· ≠ d)) (fun _ hc => ne_of_isBareChar hc bare)
    space equals h d hd rfl

theorem closing_not_mem_unwords {ws : List (List Char)} (h : ∀ v ∈ ws, IsPart v) :
    ')' ∉ unwords ws :=
  not_mem_unwords_of_isPart (by decide) (by decide) (by decide) h

/-! ## Spacing -/

theorem spaceEquals_append (a b : List Char) :
    spaceEquals (a ++ b) = spaceEquals a ++ spaceEquals b := List.flatMap_append

theorem spaceEquals_of_not_mem : ∀ {cs : List Char}, '=' ∉ cs → spaceEquals cs = cs
  | [], _ => rfl
  | c :: cs, h => by
      obtain ⟨hc, hcs⟩ := List.ne_and_not_mem_of_not_mem_cons h
      have ih := spaceEquals_of_not_mem hcs
      rw [spaceEquals] at ih ⊢
      rw [List.flatMap_cons, ih, if_neg (Ne.symm hc)]
      rfl

/-- Spacing brings in no other characters. -/
theorem mem_of_mem_spaceEquals {c : Char} (hc : c ≠ ' ') {cs : List Char}
    (h : c ∈ spaceEquals cs) : c ∈ cs := by
  obtain ⟨d, hd, hcd⟩ := List.mem_flatMap.1 h
  by_cases eq : d = '='
  · subst eq
    have : c = '=' := by simpa [hc] using hcd
    exact this ▸ hd
  · rw [if_neg eq, List.mem_singleton] at hcd
    exact hcd ▸ hd

theorem words_spaceEquals_of_isPart {w : List Char} : IsPart w → words (spaceEquals w) = [w]
  | .inl h => by
      rw [spaceEquals_of_not_mem (h.not_mem (by decide)), words_of_isWord h.isWord]
  | .inr h => by subst h; decide

/-- **Spacing leaves the words of a text of parts as they are.** -/
theorem words_spaceEquals_unwords :
    ∀ {ws : List (List Char)}, (∀ w ∈ ws, IsPart w) → words (spaceEquals (unwords ws)) = ws
  | [], _ => rfl
  | [w], h => by simpa [unwords] using words_spaceEquals_of_isPart (h w (by simp))
  | w :: v :: ws, h => by
      have rest := words_spaceEquals_unwords fun u hu => h u (List.mem_cons_of_mem w hu)
      rw [unwords_cons (by simp), spaceEquals_append]
      change words (spaceEquals w ++ ' ' :: spaceEquals (unwords (v :: ws))) = _
      rw [words_append_blank isBlank_space, words_spaceEquals_of_isPart (h w (by simp)), rest]
      rfl

/-! ## Normal forms -/

theorem returnsBetween_of_ne {c : Char} (hc : c ≠ ')') (rest : List Char) :
    returnsBetween (c :: rest) = none := by
  unfold returnsBetween
  split
  · simp_all
  · rfl

theorem copies_returnsBetween {cs : List Char} (h : ')' ∉ cs) : returnsBetween.Copies cs :=
  .of_not_mem (fun _ => returnsBetween_of_ne) h

/-- Without a closing parenthesis, only the spacing counts. -/
theorem normalize_of_not_mem {cs : List Char} (h : ')' ∉ cs) :
    normalize cs = unwords (words (spaceEquals cs)) := by
  have none : ')' ∉ spaceEquals cs := fun hm => h (mem_of_mem_spaceEquals (by decide) hm)
  rw [normalize, (copies_returnsBetween none).replaceAll_eq]
  rfl

theorem not_mem_of_blank {blanks : List Char} (h : ∀ c ∈ blanks, isBlank c = true) {d : Char}
    (hd : isBlank d = false) : d ∉ blanks := fun hm => by simp [h d hm] at hd

/-- **Blanks in front of a text do not change its normal form.** -/
theorem normalize_blanks_append {blanks : List Char} (h : ∀ c ∈ blanks, isBlank c = true)
    (cs : List Char) : normalize (blanks ++ cs) = normalize cs := by
  have copied : returnsBetween.Copies blanks :=
    copies_returnsBetween (not_mem_of_blank h (by decide))
  rw [normalize, spaceEquals_append, spaceEquals_of_not_mem (not_mem_of_blank h (by decide)),
    copied, collapse, words_blanks_append h]
  rfl

theorem emit_of_blanks {blanks : List Char} (h : ∀ c ∈ blanks, isBlank c = true) :
    emit blanks = [] := by
  have := normalize_blanks_append h []
  rw [List.append_nil] at this
  rw [emit, this]
  rfl

theorem emit_of_normalize {cs statement : List Char} (h : normalize cs = statement)
    (ne : statement ≠ []) : emit cs = [statement] := by
  rw [emit, h]
  simp [ne]

theorem eq_normalize_of_mem_emit {cs x : List Char} (h : x ∈ emit cs) : x = normalize cs := by
  unfold emit at h
  split_ifs at h <;> simp_all

/-- **A text of parts is in normal form.** -/
theorem normalize_unwords {ws : List (List Char)} (h : ∀ w ∈ ws, IsPart w) :
    normalize (unwords ws) = unwords ws := by
  rw [normalize_of_not_mem (closing_not_mem_unwords h), words_spaceEquals_unwords h]

/-- With an opening brace after it, it is so once a single space stands before the brace. -/
theorem normalize_unwords_opening {ws : List (List Char)} (ne : ws ≠ [])
    (h : ∀ w ∈ ws, IsPart w) :
    normalize (unwords ws ++ [' ', ' ', '{']) = unwords ws ++ [' ', '{'] := by
  have none : ')' ∉ unwords ws ++ [' ', ' ', '{'] := by
    simp [closing_not_mem_unwords h]
  rw [normalize_of_not_mem none, spaceEquals_append]
  change unwords (words (spaceEquals (unwords ws) ++ ' ' :: [' ', '{'])) = _
  rw [words_append_blank isBlank_space, words_spaceEquals_unwords h]
  exact unwords_append_singleton ['{'] ne

end ProtoSchema.Source
