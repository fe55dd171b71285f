import Mathlib.Data.List.Chain
import ProtoSchema.Text.Replace

/-!
# Proofs/Text/Replace — what a rule copies and what it replaces

A rule *copies* a stretch of text if replacing leaves that stretch as it is and goes on after it,
whatever follows.  Copied stretches can be put side by side, so a long text is seen to be copied
piece by piece.

A rule *finds* the phrases of a class if it fits just where one of them stands and puts the same
text for each.  Then its result is the text with some phrases replaced (`Finds.replaced`), and texts
that no phrase crosses are replaced in one by one (`Finds.replaceAll_append`).

Stretches that can be *exchanged* in phrases make no difference to where phrases stand: texts that
are equal but for one such stretch are so after replacing (`Finds.differ_replaceAll`).
-/

namespace ProtoSchema.Text

/-- **The rule copies the stretch `cs`**, whatever text follows it. -/
def Rule.Copies (rule : Rule) (cs : List Char) : Prop :=
  ∀ rest, replaceAll rule (cs ++ rest) = cs ++ replaceAll rule rest

namespace Rule.Copies

variable {rule : Rule} {a b cs : List Char}

theorem nil : rule.Copies [] := fun _ => rfl

theorem append (ha : rule.Copies a) (hb : rule.Copies b) : rule.Copies (a ++ b) := fun rest => by
  rw [List.append_assoc, ha, hb, List.append_assoc]

/-- A character that starts no phrase of the rule is copied. -/
theorem cons {c : Char} (hc : ∀ rest, rule (c :: rest) = none) (h : rule.Copies cs) :
    rule.Copies (c :: cs) := fun rest => by
  rw [List.cons_append, replaceAll_cons_of_none (hc _), h, List.cons_append]

/-- So is a stretch of such characters. -/
theorem of_forall_mem : ∀ {cs : List Char}, (∀ c ∈ cs, ∀ rest, rule (c :: rest) = none) →
    rule.Copies cs
  | [], _ => nil
  | _ :: _, h => cons (h _ (by simp)) (of_forall_mem fun d hd => h d (List.mem_cons_of_mem _ hd))

/-- A rule whose phrases all start with `d` copies a stretch without `d`. -/
theorem of_not_mem {d : Char} (first : ∀ c, c ≠ d → ∀ rest, rule (c :: rest) = none)
    (h : d ∉ cs) : rule.Copies cs :=
  of_forall_mem fun c hc => first c fun e => h (e ▸ hc)

/-- A text that is copied is its own result. -/
theorem replaceAll_eq (h : rule.Copies cs) : replaceAll rule cs = cs := by
  have := h []
  rwa [List.append_nil, replaceAll_nil, List.append_nil] at this

end Rule.Copies

/-! ## Pairs of characters -/

/-- **No `a` with a `b` right after it.** -/
def Unpaired (a b : Char) (cs : List Char) : Prop := cs.IsChain fun x y => ¬ (x = a ∧ y = b)

instance (a b : Char) (cs : List Char) : Decidable (Unpaired a b cs) :=
  inferInstanceAs (Decidable (cs.IsChain _))

theorem unpaired_cons {a b c : Char} {cs : List Char} :
    Unpaired a b (c :: cs) ↔ (c = a → cs.head? ≠ some b) ∧ Unpaired a b cs := by
  rw [Unpaired, List.isChain_cons]
  refine and_congr_left' ⟨fun h same next => h b next ⟨same, rfl⟩, ?_⟩
  rintro h _ next ⟨same, rfl⟩
  exact h same next

theorem unpaired_iff {a b : Char} {cs : List Char} : Unpaired a b cs ↔ ¬ [a, b] <:+: cs := by
  rw [Unpaired, List.isChain_iff_forall_rel_of_append_cons_cons]
  constructor
  · rintro h ⟨xs, ys, rfl⟩
    exact h (List.append_assoc xs [a, b] ys) ⟨rfl, rfl⟩
  · rintro h x y xs ys rfl ⟨rfl, rfl⟩
    exact h ⟨xs, ys, by simp⟩

/-- A text without `a` is free of the pair. -/
theorem unpaired_of_not_mem {a b : Char} {cs : List Char} (h : a ∉ cs) : Unpaired a b cs :=
  unpaired_iff.2 fun pair => h (pair.subset List.mem_cons_self)

theorem Unpaired.of_infix {a b : Char} {cs ds : List Char} (h : Unpaired a b ds)
    (part : cs <:+: ds) : Unpaired a b cs := List.IsChain.infix h part

/-- Two texts side by side are free of the pair if each is and they do not meet in it. -/
theorem Unpaired.append {a b : Char} {cs ds : List Char} (hc : Unpaired a b cs)
    (hd : Unpaired a b ds) (meet : cs.getLast? = some a → ds.head? ≠ some b) :
    Unpaired a b (cs ++ ds) := by
  refine List.isChain_append.2 ⟨hc, hd, ?_⟩
  rintro _ last _ first ⟨rfl, rfl⟩
  exact meet last first

/-- A stretch without the two characters parts the pairs before it from those after it. -/
theorem unpaired_append_stretch {a b : Char} {u : List Char} (ne : u ≠ []) (ha : a ∉ u)
    (hb : b ∉ u) (x y : List Char) :
    Unpaired a b (x ++ u ++ y) ↔ Unpaired a b x ∧ Unpaired a b y := by
  constructor
  · intro h
    exact ⟨h.of_infix ⟨[], u ++ y, by simp⟩, h.of_infix ⟨x ++ u, [], by simp⟩⟩
  · rintro ⟨hx, hy⟩
    refine (hx.append (unpaired_of_not_mem ha) fun _ first => ?_).append hy fun last => ?_
    · exact absurd (List.mem_of_head? first) hb
    · rw [List.getLast?_append_of_ne_nil x ne] at last
      exact absurd (List.mem_of_getLast? last) ha

/-! ## Phrases -/

/-- **The rule finds these phrases** and puts `new` for each of them. -/
structure Rule.Finds (rule : Rule) (phrase : List Char → Prop) (new : List Char) : Prop where
  fits : ∀ {cs out more}, rule cs = some (out, more)
    ↔ out = new ∧ ∃ p rest, phrase p ∧ cs = p ++ rest ∧ p.length = more + 1

/-- `Replaced phrase new cs ds`: the text `ds` is `cs` with `new` put for some of its phrases. -/
inductive Replaced (phrase : List Char → Prop) (new : List Char) : List Char → List Char → Prop
  | nil : Replaced phrase new [] []
  | copy {cs ds : List Char} (c : Char) : Replaced phrase new cs ds →
      Replaced phrase new (c :: cs) (c :: ds)
  | replace {p cs ds : List Char} : phrase p → Replaced phrase new cs ds →
      Replaced phrase new (p ++ cs) (new ++ ds)

namespace Rule.Finds

variable {rule : Rule} {phrase : List Char → Prop} {new : List Char}

/-- A phrase is replaced, and replacing goes on after it. -/
theorem replaceAll_phrase (h : rule.Finds phrase new) {c : Char} {p : List Char}
    (hp : phrase (c :: p)) (rest : List Char) :
    replaceAll rule (c :: p ++ rest) = new ++ replaceAll rule rest := by
  have fit : rule (c :: (p ++ rest)) = some (new, p.length) :=
    h.fits.2 ⟨rfl, c :: p, rest, hp, rfl, rfl⟩
  rw [List.cons_append, replaceAll_cons_of_some fit, List.drop_left]

/-- **What a rule does to a text**: at its front it copies a character or replaces a phrase. -/
theorem cases (h : rule.Finds phrase new) (c : Char) (cs : List Char) :
    (replaceAll rule (c :: cs) = c :: replaceAll rule cs
        ∧ ∀ p rest, phrase p → p ≠ [] → c :: cs ≠ p ++ rest)
      ∨ ∃ p rest, phrase (c :: p) ∧ cs = p ++ rest
        ∧ replaceAll rule (c :: cs) = new ++ replaceAll rule rest := by
  cases fit : rule (c :: cs) with
  | none =>
    refine .inl ⟨replaceAll_cons_of_none fit, fun p rest hp ne split => ?_⟩
    obtain ⟨d, q, rfl⟩ := List.exists_cons_of_ne_nil ne
    have some := h.fits.2 ⟨rfl, d :: q, rest, hp, split, rfl⟩
    exact Option.some_ne_none _ (some.symm.trans fit)
  | some found =>
    obtain ⟨out, more⟩ := found
    obtain ⟨rfl, p, rest, hp, split, length⟩ := h.fits.1 fit
    obtain ⟨d, q, rfl⟩ := List.exists_cons_of_length_eq_add_one length
    obtain ⟨rfl, rfl⟩ := List.cons.inj split
    exact .inr ⟨q, rest, hp, rfl, h.replaceAll_phrase hp rest⟩

/-- **The result is the text with some of its phrases replaced.** -/
theorem replaced (h : rule.Finds phrase new) (cs : List Char) :
    Replaced phrase new cs (replaceAll rule cs) := by
  match cs with
  | [] => exact .nil
  | c :: cs =>
    rcases h.cases c cs with ⟨copied, -⟩ | ⟨p, rest, hp, split, replaced⟩
    · exact copied ▸ .copy c (h.replaced cs)
    · have shorter : rest.length ≤ cs.length := by simp [split]
      rw [replaced, split]
      exact .replace hp (h.replaced rest)
termination_by cs.length
decreasing_by all_goals simp only [List.length_cons]; omega

/-- **Texts that no phrase crosses are replaced in one by one.** -/
theorem replaceAll_append (h : rule.Finds phrase new) {a b : List Char}
    (apart : ∀ s t, s ≠ [] → t ≠ [] → s <:+ a → t <+: b → ¬ phrase (s ++ t)) :
    replaceAll rule (a ++ b) = replaceAll rule a ++ replaceAll rule b := by
  match a with
  | [] => rfl
  | c :: a =>
    rcases h.cases c a with ⟨copied, none⟩ | ⟨p, rest, hp, split, replaced⟩
    · have ih := h.replaceAll_append (a := a) (b := b) fun s t hs ht hsa =>
        apart s t hs ht (hsa.trans (List.suffix_cons c a))
      rcases h.cases c (a ++ b) with ⟨copied', -⟩ | ⟨p, rest, hp, split, -⟩
      · rw [List.cons_append, copied', ih, copied, List.cons_append]
      · -- A phrase at the front would stand within `c :: a` or cross its end.
        rcases List.append_eq_append_iff.1 split with ⟨t, rfl, hb⟩ | ⟨t, rfl, -⟩
        · by_cases inner : t = []
          · subst inner
            exact absurd (by simp) (none (c :: (a ++ [])) [] hp (by simp))
          · exact absurd hp (apart (c :: a) t (by simp) inner List.suffix_rfl ⟨rest, hb.symm⟩)
        · exact absurd rfl (none (c :: p) t hp (by simp))
    · have shorter : rest.length ≤ a.length := by simp [split]
      have ih := h.replaceAll_append (a := rest) (b := b) fun s t hs ht hsa =>
        apart s t hs ht (hsa.trans ⟨c :: p, by simp [split]⟩)
      calc replaceAll rule (c :: a ++ b)
          = new ++ replaceAll rule (rest ++ b) := by
            rw [split, ← h.replaceAll_phrase hp, List.cons_append, List.cons_append,
              List.append_assoc]
        _ = replaceAll rule (c :: a) ++ replaceAll rule b := by
            rw [ih, replaced, List.append_assoc]
termination_by a.length
decreasing_by all_goals simp only [List.length_cons]; omega

/-- A character that is in no phrase parts what stands before it from what follows. -/
theorem replaceAll_append_cons (h : rule.Finds phrase new) {d : Char}
    (foreign : ∀ p, phrase p → d ∉ p) (a b : List Char) :
    replaceAll rule (a ++ d :: b) = replaceAll rule a ++ d :: replaceAll rule b := by
  have first : rule (d :: b) = none := by
    cases fit : rule (d :: b) with
    | none => rfl
    | some found =>
      obtain ⟨-, p, rest, hp, split, length⟩ := h.fits.1 fit
      obtain ⟨e, q, rfl⟩ := List.exists_cons_of_length_eq_add_one length
      obtain ⟨rfl, -⟩ := List.cons.inj split
      exact absurd List.mem_cons_self (foreign _ hp)
  rw [h.replaceAll_append, replaceAll_cons_of_none first]
  rintro s t - ht - ⟨rest, split⟩ hp
  obtain ⟨e, t, rfl⟩ := List.exists_cons_of_ne_nil ht
  obtain ⟨rfl, -⟩ := List.cons.inj split
  exact foreign _ hp (by simp)

/-- Where all phrases start with the same two characters, a text without this pair is copied. -/
theorem copies (h : rule.Finds phrase new) {a b : Char}
    (starts : ∀ p, phrase p → ∃ q, p = a :: b :: q) : ∀ {cs : List Char}, Unpaired a b cs →
      cs.getLast? ≠ some a → rule.Copies cs
  | [], _, _ => .nil
  | c :: cs, unpaired, last => fun rest => by
      obtain ⟨first, others⟩ := unpaired_cons.1 unpaired
      rcases h.cases c (cs ++ rest) with ⟨copied, -⟩ | ⟨p, tail, hp, split, -⟩
      · rw [List.cons_append, copied, List.cons_append]
        cases cs with
        | nil => rfl
        | cons d cs => rw [copies h starts others (by rwa [List.getLast?_cons_cons] at last)]
      · obtain ⟨q, same⟩ := starts _ hp
        obtain ⟨rfl, rfl⟩ := List.cons.inj same
        cases cs with
        | nil => exact absurd rfl last
        | cons d cs => exact absurd (by simp [(List.cons.inj split).1]) (first rfl)

end Rule.Finds

/-! ## Texts with phrases replaced -/

namespace Replaced

variable {phrase : List Char → Prop} {new cs ds : List Char}

/-- If every phrase starts as its replacement does, so does the whole text. -/
theorem head?_eq {c : Char} (phrases : ∀ p, phrase p → p.head? = some c)
    (replacement : new.head? = some c) (h : Replaced phrase new cs ds) :
    ds.head? = cs.head? := by
  cases h with
  | nil | copy => rfl
  | replace hp _ => rw [List.head?_append, List.head?_append, replacement, phrases _ hp]; rfl

/-- Replacing brings in no characters but those of the replacement. -/
theorem mem {c : Char} (h : Replaced phrase new cs ds) (hc : c ∈ ds) : c ∈ cs ∨ c ∈ new := by
  induction h with
  | nil => exact .inl hc
  | copy d _ ih =>
    rcases List.mem_cons.1 hc with rfl | hc
    · exact .inl List.mem_cons_self
    · exact (ih hc).imp_left (List.mem_cons_of_mem d)
  | replace _ _ ih =>
    rcases List.mem_append.1 hc with hc | hc
    · exact .inr hc
    · exact (ih hc).imp_left fun hc => List.mem_append.2 (.inr hc)

/-- If phrases start as their replacement does, what the result starts with before that character
is what the text starts with. -/
theorem prefix_of_not_mem {c : Char} (phrases : ∀ p, phrase p → p.head? = some c)
    (replacement : new.head? = some c) (h : Replaced phrase new cs ds) :
    ∀ {m : List Char}, c ∉ m → m <+: ds → m <+: cs := by
  induction h with
  | nil => exact fun _ start => start
  | copy d _ ih =>
    intro m free start
    cases m with
    | nil => exact List.nil_prefix
    | cons e m =>
      obtain ⟨rfl, rest⟩ := List.cons_prefix_cons.1 start
      exact List.cons_prefix_cons.2 ⟨rfl, ih (fun mem => free (List.mem_cons_of_mem e mem)) rest⟩
  | replace _ _ _ =>
    intro m free start
    obtain ⟨tail, rfl⟩ := List.head?_eq_some_iff.1 replacement
    cases m with
    | nil => exact List.nil_prefix
    | cons e m =>
      obtain ⟨rfl, -⟩ := List.cons_prefix_cons.1 start
      exact absurd List.mem_cons_self free

/-- A text in which no phrase stands is left alone. -/
theorem eq_of_absent (h : Replaced phrase new cs ds)
    (none : ∀ p, phrase p → ¬ p <:+: cs) : ds = cs := by
  induction h with
  | nil => rfl
  | copy c _ ih =>
    rw [ih fun p hp part => none p hp (part.trans (List.suffix_cons c _).isInfix)]
  | replace hp _ _ => exact absurd (List.prefix_append _ _).isInfix (none _ hp)

/-- **Replacing keeps neighbours in a relation**, if phrases start as their replacement does, the
replacement keeps them so, and what may follow a phrase may follow it. -/
theorem isChain {r : Char → Char → Prop} {c : Char} (phrases : ∀ p, phrase p → p.head? = some c)
    (replacement : new.head? = some c) (inner : new.IsChain r)
    (ends : ∀ p, phrase p → ∀ y, (∀ x ∈ p.getLast?, r x y) → ∀ x ∈ new.getLast?, r x y)
    (h : Replaced phrase new cs ds) (chain : cs.IsChain r) : ds.IsChain r := by
  induction h with
  | nil => exact chain
  | copy c rest ih =>
    rw [List.isChain_cons] at chain ⊢
    rw [rest.head?_eq phrases replacement]
    exact ⟨chain.1, ih chain.2⟩
  | replace hp rest ih =>
    obtain ⟨-, chain, meet⟩ := List.isChain_append.1 chain
    refine List.isChain_append.2 ⟨inner, ih chain, fun x hx y hy => ?_⟩
    rw [rest.head?_eq phrases replacement] at hy
    exact ends _ hp y (fun x hx => meet x hx y hy) x hx

/-- **Replacing brings in no pair of characters**, if phrases start as their replacement does, and
the replacement is free of the pair and does not end in it. -/
theorem unpaired {a b c : Char} (phrases : ∀ p, phrase p → p.head? = some c)
    (replacement : new.head? = some c) (free : Unpaired a b new) (ends : new.getLast? ≠ some a)
    (h : Replaced phrase new cs ds) (unpaired : Unpaired a b cs) : Unpaired a b ds :=
  h.isChain phrases replacement free
    (fun _ _ _ _ _ hx both => ends (both.1 ▸ hx)) unpaired

end Replaced

/-! ## Stretches in each other's place -/

/-- **The stretches `u` and `v` can be exchanged in phrases**: no phrase starts or ends in one of
them, and a phrase that one of them is in is a phrase with the other. -/
structure Exchanges (phrase : List Char → Prop) (u v : List Char) : Prop where
  starts : ∀ p, phrase p → ∀ c ∈ p.head?, c ∉ u ∧ c ∉ v
  ends : ∀ p, phrase p → ∀ c ∈ p.getLast?, c ∉ u ∧ c ∉ v
  inside : ∀ s t, phrase (s ++ u ++ t) ↔ phrase (s ++ v ++ t)

variable {phrase : List Char → Prop} {rule : Rule} {new u v cs ds : List Char}

/-- A stretch in a text that shares no character with its ends stands between them. -/
theorem exists_between {front m back s t : List Char} (ne : u ≠ [])
    (apart : ∀ c ∈ front ++ back, c ∉ u) (split : front ++ (m ++ back) = s ++ u ++ t) :
    ∃ s' t', s = front ++ s' ∧ t = t' ++ back ∧ m = s' ++ u ++ t' := by
  obtain ⟨s, rfl, inner⟩ : ∃ s', s = front ++ s' ∧ m ++ back = s' ++ u ++ t := by
    rw [List.append_assoc] at split
    rcases List.append_eq_append_iff.1 split with ⟨s', rfl, rest⟩ | ⟨x, rfl, rest⟩
    · exact ⟨s', rfl, by rw [rest, List.append_assoc]⟩
    · cases x with
      | nil => exact ⟨[], by simp, by simpa using rest.symm⟩
      | cons c x =>
        obtain ⟨d, u, rfl⟩ := List.exists_cons_of_ne_nil ne
        obtain ⟨rfl, -⟩ := List.cons.inj rest
        exact absurd List.mem_cons_self (apart d (by simp))
  rcases List.append_eq_append_iff.1 inner with ⟨x, same, rest⟩ | ⟨t', rfl, rfl⟩
  · rcases x.eq_nil_or_concat with rfl | ⟨x, c, rfl⟩
    · exact ⟨s, [], rfl, by simpa using rest.symm, by simpa using same.symm⟩
    · rcases u.eq_nil_or_concat with rfl | ⟨u, d, rfl⟩
      · exact absurd rfl ne
      · rw [List.concat_eq_append, List.concat_eq_append, ← List.append_assoc,
          ← List.append_assoc] at same
        obtain rfl := List.singleton_inj.1 (List.append_inj' same rfl).2
        exact absurd (by simp) (apart d (by simp [rest]))
  · exact ⟨s, t', rfl, rfl, rfl⟩

/-- **Stretches can be exchanged in phrases that stand between two ends** which share no character
with them. -/
theorem Exchanges.of_between (hu : u ≠ []) (hv : v ≠ [])
    (between : ∀ p, phrase p → ∃ front m back, front ≠ [] ∧ back ≠ []
      ∧ (∀ c ∈ front ++ back, c ∉ u ∧ c ∉ v) ∧ p = front ++ (m ++ back)
      ∧ ∀ s t, phrase (front ++ (s ++ u ++ t ++ back))
        ↔ phrase (front ++ (s ++ v ++ t ++ back))) :
    Exchanges phrase u v where
  starts p hp c hc := by
    obtain ⟨front, m, back, nf, -, apart, rfl, -⟩ := between p hp
    rw [List.head?_append_of_ne_nil front nf] at hc
    exact apart c (List.mem_append_left back (List.mem_of_head? hc))
  ends p hp c hc := by
    obtain ⟨front, m, back, -, nb, apart, rfl, -⟩ := between p hp
    rw [← List.append_assoc, List.getLast?_append_of_ne_nil _ nb] at hc
    exact apart c (List.mem_append_right front (List.mem_of_getLast? hc))
  inside s t := by
    constructor
    · intro hp
      obtain ⟨front, m, back, -, -, apart, split, exchanged⟩ := between _ hp
      obtain ⟨s, t, rfl, rfl, rfl⟩ := exists_between hu (fun c hc => (apart c hc).1) split.symm
      have other := (exchanged s t).1 (split ▸ hp)
      simpa only [List.append_assoc] using other
    · intro hp
      obtain ⟨front, m, back, -, -, apart, split, exchanged⟩ := between _ hp
      obtain ⟨s, t, rfl, rfl, rfl⟩ := exists_between hv (fun c hc => (apart c hc).2) split.symm
      have other := (exchanged s t).2 (split ▸ hp)
      simpa only [List.append_assoc] using other

namespace Exchanges

theorem symm (h : Exchanges phrase u v) : Exchanges phrase v u where
  starts p hp c hc := (h.starts p hp c hc).symm
  ends p hp c hc := (h.ends p hp c hc).symm
  inside s t := (h.inside s t).symm

/-- A phrase at the front of a text ends before the stretch, or goes on after it. -/
theorem front (h : Exchanges phrase u v) {c : Char} {a b p rest : List Char} (hp : phrase (c :: p))
    (split : a ++ u ++ b = p ++ rest) :
    (∃ t, a = p ++ t ∧ rest = t ++ u ++ b)
      ∨ ∃ t, b = t ++ rest ∧ p = a ++ u ++ t ∧ phrase (c :: (a ++ v ++ t)) := by
  rw [List.append_assoc] at split
  rcases List.append_eq_append_iff.1 split with ⟨m, rfl, after⟩ | ⟨t, rfl, rfl⟩
  · rcases List.append_eq_append_iff.1 after with ⟨t, rfl, rfl⟩ | ⟨t, rfl, rfl⟩
    · rw [← List.append_assoc] at hp ⊢
      exact .inr ⟨t, rfl, rfl, (h.inside (c :: a) t).1 hp⟩
    · -- The phrase would end in the stretch.
      cases m.eq_nil_or_concat with
      | inl none => exact .inl ⟨[], by simp [none], by simp [none]⟩
      | inr some =>
        obtain ⟨m, d, rfl⟩ := some
        rw [List.concat_eq_append] at hp h
        have last : d ∈ (c :: (a ++ (m ++ [d]))).getLast? := by
          rw [← List.append_assoc, ← List.cons_append, List.getLast?_concat]
          rfl
        exact absurd (by simp) (h.ends _ hp d last).1
  · exact .inl ⟨t, rfl, by rw [List.append_assoc]⟩

end Exchanges

/-- **The texts are equal but for at most one place**, where one has `u` and the other `v`. -/
def Differ (u v cs ds : List Char) : Prop :=
  cs = ds ∨ ∃ a b, cs = a ++ u ++ b ∧ ds = a ++ v ++ b

theorem Differ.append_left (x : List Char) (h : Differ u v cs ds) :
    Differ u v (x ++ cs) (x ++ ds) := by
  rcases h with rfl | ⟨a, b, rfl, rfl⟩
  · exact .inl rfl
  · exact .inr ⟨x ++ a, b, by simp only [List.append_assoc], by simp only [List.append_assoc]⟩

/-- A stretch in which no phrase starts is copied. -/
theorem Rule.Finds.copies_of_starts (h : rule.Finds phrase new)
    (starts : ∀ p, phrase p → ∀ c ∈ p.head?, c ∉ u) : rule.Copies u :=
  .of_forall_mem fun c hc rest => by
    cases fit : rule (c :: rest) with
    | none => rfl
    | some found =>
      obtain ⟨-, p, tail, hp, split, length⟩ := h.fits.1 fit
      obtain ⟨d, q, rfl⟩ := List.exists_cons_of_length_eq_add_one length
      obtain ⟨rfl, -⟩ := List.cons.inj split
      exact absurd hc (starts _ hp c rfl)

/-- **Texts that are equal but for such stretches stay so when phrases are replaced.** -/
theorem Rule.Finds.differ_replaceAll (h : rule.Finds phrase new) (e : Exchanges phrase u v)
    (a b : List Char) :
    Differ u v (replaceAll rule (a ++ u ++ b)) (replaceAll rule (a ++ v ++ b)) := by
  match a with
  | [] =>
    have copied := h.copies_of_starts fun p hp c hc => (e.starts p hp c hc).1
    have copied' := h.copies_of_starts fun p hp c hc => (e.starts p hp c hc).2
    exact .inr ⟨[], replaceAll rule b, copied b, copied' b⟩
  | c :: a =>
    rcases h.cases c (a ++ u ++ b) with ⟨copied, none⟩ | ⟨p, rest, hp, split, replaced⟩
    · rcases h.cases c (a ++ v ++ b) with ⟨copied', -⟩ | ⟨p, rest, hp, split, -⟩
      · have ih := h.differ_replaceAll e a b
        simp only [List.cons_append, copied, copied']
        exact ih.append_left [c]
      · -- The phrase would stand in the other text as well.
        rcases e.symm.front hp split with ⟨t, rfl, -⟩ | ⟨t, rfl, -, hp⟩
        · exact absurd (by simp) (none (c :: p) (t ++ u ++ b) hp (by simp))
        · exact absurd (by simp) (none _ rest hp (by simp))
    · rcases e.front hp split with ⟨t, inside, rfl⟩ | ⟨t, rfl, rfl, hp'⟩
      · have shorter : t.length ≤ a.length := by simp [inside]
        have ih := h.differ_replaceAll e t b
        have replaced' := h.replaceAll_phrase hp (t ++ v ++ b)
        rw [inside]
        simp only [List.cons_append, List.append_assoc, inside] at replaced replaced' ih ⊢
        rw [replaced, replaced']
        exact ih.append_left new
      · have replaced' := h.replaceAll_phrase hp' rest
        refine .inl ?_
        simp only [List.cons_append, List.append_assoc] at replaced replaced' ⊢
        rw [replaced, replaced']
termination_by a.length
decreasing_by all_goals simp only [List.length_cons]; omega

theorem Differ.replaceAll (d : Differ u v cs ds) (h : rule.Finds phrase new)
    (e : Exchanges phrase u v) : Differ u v (replaceAll rule cs) (replaceAll rule ds) := by
  rcases d with rfl | ⟨a, b, rfl, rfl⟩
  · exact .inl rfl
  · exact h.differ_replaceAll e a b

end ProtoSchema.Text
