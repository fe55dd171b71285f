import ProtoSchema.Proofs.Document.Progress
import ProtoSchema.Proofs.Document.Statements

/-!
# Proofs/Document/CommentWording — what the words of a line comment do

A line comment that is no annotation becomes a statement that changes nothing, so its words do not
matter, with one exception: a comment that ends in `)` and an opening brace takes the closing brace
that the following lines start with for its own (`ofText_comment_wording`).
-/

namespace ProtoSchema

open Text Source Text.Letterwise

namespace Source

/-! ## What a comment does to the text around it -/

/-- **The comment opens a body** and leaves it open: it ends in a parenthesis, a gap, a brace and
blanks. -/
def OpensBody (cs : List Char) : Prop :=
  ∃ front gap inner, (∀ c ∈ gap, isGap c = true) ∧ (∀ c ∈ inner, isBlank c = true)
    ∧ cs = front ++ ')' :: (gap ++ '{' :: inner)

/-- **The text closes a body**: after blanks, a closing brace comes first. -/
def ClosesBody (cs : List Char) : Prop :=
  ∃ inner rest, (∀ c ∈ inner, isBlank c = true) ∧ cs = inner ++ '}' :: rest

/-- A text that can stand in front of a comment: it is not blank, holds no `/*`, and with its empty
bodies out of the way it ends in code. -/
structure HostsComment (cs : List Char) : Prop where
  visible : ∃ c ∈ cs, isBlank c = false
  unblocked : Unpaired '/' '*' cs
  endsInCode : EndsInCode (tidy cs)

/-- The text of a comment on one line that neither annotates an import nor opens a block comment. -/
structure IsWording (cs : List Char) : Prop where
  unbroken : ∀ c ∈ cs, isLineBreak c = false
  plain : annotatedPackage? (String.ofList ('/' :: '/' :: cs)) = none
  unblocked : Unpaired '/' '*' ('/' :: '/' :: cs)

/-- An empty body that goes over the end of a line opens on the line and closes after it. -/
theorem IsEmptyBody.split {s t : List Char} (h : IsEmptyBody (s ++ '\n' :: t)) :
    (∃ gap inner, (∀ c ∈ gap, isGap c = true) ∧ (∀ c ∈ inner, isBlank c = true)
      ∧ s = ')' :: (gap ++ '{' :: inner))
    ∧ ∃ inner, (∀ c ∈ inner, isBlank c = true) ∧ t = inner ++ ['}'] := by
  obtain ⟨gap, inner, hg, hi, same⟩ := h
  have same : ')' :: (gap ++ ['{']) ++ (inner ++ ['}']) = s ++ ['\n'] ++ t := by
    rw [List.append_assoc, List.singleton_append, same]
    simp
  have before : '\n' ∉ gap := fun mem => absurd (hg _ mem) (by decide)
  have apart : ∀ c ∈ ')' :: (gap ++ ['{']) ++ ['}'], c ∉ ['\n'] := by
    rintro c hc mem
    obtain rfl := List.mem_singleton.1 mem
    exact absurd hc (by simp [before])
  obtain ⟨opened, closed, rfl, rfl, rfl⟩ := exists_between (by simp) apart same
  exact ⟨⟨gap, opened, hg, fun c hc => hi c (by simp [hc]), by simp⟩,
    closed, fun c hc => hi c (by simp [hc]), rfl⟩

variable {c q : List Char}

/-- **The end of a line parts what it holds from what follows**, unless a body is open there and
closed after it. -/
theorem replaceAll_emptyBody_line (h : ¬ (OpensBody c ∧ ClosesBody q)) :
    replaceAll emptyBody (c ++ '\n' :: q)
      = replaceAll emptyBody c ++ '\n' :: replaceAll emptyBody q := by
  have first : emptyBody ('\n' :: q) = none := emptyBody_of_ne (by decide) q
  rw [emptyBody_finds.replaceAll_append, replaceAll_cons_of_none first]
  rintro s t - ht hs ⟨tail, ends⟩ body
  obtain ⟨d, t, rfl⟩ := List.exists_cons_of_ne_nil ht
  obtain ⟨rfl, rfl⟩ := List.cons.inj ends
  obtain ⟨⟨gap, inner, hg, hi, rfl⟩, closed, hc, rfl⟩ := body.split
  obtain ⟨front, rfl⟩ := hs
  exact h ⟨⟨front, gap, inner, hg, hi, rfl⟩, closed, tail, hc, by simp⟩

/-- **A body that is open at the end of a line and closed after it is an empty body.** -/
theorem replaceAll_emptyBody_crossing {front gap inner closed rest : List Char}
    (hg : ∀ c ∈ gap, isGap c = true) (hi : ∀ c ∈ inner, isBlank c = true)
    (hc : ∀ c ∈ closed, isBlank c = true) :
    replaceAll emptyBody (front ++ ')' :: (gap ++ '{' :: inner) ++ '\n' :: (closed ++ '}' :: rest))
      = replaceAll emptyBody front ++ [')'] ++ ';' :: replaceAll emptyBody rest := by
  have blanks : ∀ c ∈ inner ++ '\n' :: closed, isBlank c = true := fun c mem => by
    rcases List.mem_append.1 mem with mem | mem
    · exact hi c mem
    · rcases List.mem_cons.1 mem with rfl | mem
      · decide
      · exact hc c mem
  have body : IsEmptyBody (')' :: (gap ++ '{' :: (inner ++ '\n' :: closed ++ ['}']))) :=
    ⟨gap, _, hg, blanks, rfl⟩
  have split : front ++ ')' :: (gap ++ '{' :: inner) ++ '\n' :: (closed ++ '}' :: rest)
      = front ++ (')' :: (gap ++ '{' :: (inner ++ '\n' :: closed ++ ['}'])) ++ rest) := by
    simp
  rw [split, emptyBody_finds.replaceAll_append, emptyBody_finds.replaceAll_phrase body]
  · simp
  · rintro s t hs ht - ⟨tail, start⟩ body
    obtain ⟨d, t, rfl⟩ := List.exists_cons_of_ne_nil ht
    obtain ⟨rfl, -⟩ := List.cons.inj start
    obtain ⟨e, s, rfl⟩ := List.exists_cons_of_ne_nil hs
    obtain rfl : e = ')' := Option.some.inj (head?_of_isEmptyBody _ body)
    exact body.not_mem_tail (by simp)

/-! ## The texts with a comment -/

theorem dropWhile_ne_break {cs : List Char} (free : '\n' ∉ cs) (rest : List Char) :
    (cs ++ '\n' :: rest).dropWhile (· ≠ '\n') = '\n' :: rest := by
  have other : ∀ c ∈ cs, decide (c ≠ '\n') = true := fun c hc => by
    simpa using ne_of_mem_of_not_mem hc free
  rw [List.dropWhile_append_of_pos other, List.dropWhile_cons_of_neg (by simp)]

/-- A character that is not passed over stays, and so does all that follows it. -/
theorem dropWhile_append_of_mem {f : Char → Bool} {cs : List Char} {c : Char} (hc : c ∈ cs)
    (stays : f c = false) (rest : List Char) :
    cs.dropWhile f ≠ [] ∧ (cs ++ rest).dropWhile f = cs.dropWhile f ++ rest := by
  have some : cs.dropWhile f ≠ [] := fun none => by
    simpa [stays] using List.dropWhile_eq_nil_iff.1 none c hc
  refine ⟨some, ?_⟩
  rw [List.dropWhile_append, List.isEmpty_eq_false_iff.2 some]
  rfl

/-- A comment that leads a text runs into the mark after it, or what follows the text stays. -/
theorem dropLeadingComment_append {p : List Char} (ne : p ≠ []) :
    (∀ k rest, '\n' ∉ k →
        dropLeadingComment (p ++ '/' :: '/' :: (k ++ '\n' :: rest)) = '\n' :: rest)
      ∨ ∀ rest, dropLeadingComment (p ++ rest) = dropLeadingComment p ++ rest := by
  by_cases slash : p = ['/']
  · left
    rintro k rest hk
    subst slash
    have free : '\n' ∉ '/' :: k := by simp [hk]
    exact dropWhile_ne_break free rest
  by_cases leads : ['/', '/'] <+: p
  · obtain ⟨p, rfl⟩ := leads
    by_cases ends : '\n' ∈ p
    · exact .inr fun rest => (dropWhile_append_of_mem ends (by simp) rest).2
    · left
      intro k rest hk
      have free : '\n' ∉ p ++ '/' :: '/' :: k := by simp [ends, hk]
      have broken := dropWhile_ne_break free rest
      rwa [List.append_assoc, List.cons_append, List.cons_append] at broken
  · right
    have kept : ∀ rest, dropLeadingComment (p ++ rest) = p ++ rest := fun rest => by
      refine dropLeadingComment_of_unmarked fun mark => ?_
      match p with
      | [] => exact ne rfl
      | [c] => exact slash (by rw [(List.cons_prefix_cons.1 mark).1])
      | c :: d :: p =>
        exact leads (List.prefix_of_prefix_length_le mark (List.prefix_append _ rest) (by simp))
    intro rest
    have none := kept []
    rw [List.append_nil] at none
    rw [kept, none]

/-- No block comment goes over a line with a wording. -/
theorem eraseBlockComments_mark {p k : List Char} (h : Unpaired '/' '*' p) (hk : IsWording k)
    (rest : List Char) :
    eraseBlockComments (p ++ '/' :: '/' :: (k ++ '\n' :: rest))
      = p ++ '/' :: '/' :: (k ++ '\n' :: eraseBlockComments rest) := by
  have line : Unpaired '/' '*' ('/' :: '/' :: k ++ ['\n']) :=
    hk.unblocked.append (unpaired_of_not_mem (by decide)) (by simp)
  have free : Unpaired '/' '*' (p ++ ('/' :: '/' :: k ++ ['\n'])) := h.append line (by simp)
  have last : (p ++ ('/' :: '/' :: k ++ ['\n'])).getLast? ≠ some '/' := by
    rw [← List.append_assoc, List.getLast?_concat]
    decide
  simpa using eraseBlockComments_append_of_unpaired free last rest

/-- **Tidying a text with a comment in it** either drops the comment with one that leads the text,
or leaves the mark and tidies what is before it. -/
theorem tidy_mark {p : List Char} (h : HostsComment p) :
    (∀ k rest, IsWording k →
        tidy (p ++ '/' :: '/' :: (k ++ '\n' :: rest))
          = replaceAll emptyBody ('\n' :: eraseBlockComments rest))
      ∨ ∀ k rest, IsWording k →
        tidy (p ++ '/' :: '/' :: (k ++ '\n' :: rest))
          = tidy p ++ '/' :: '/' :: replaceAll emptyBody
              (k ++ '\n' :: eraseBlockComments rest) := by
  obtain ⟨c, hc, visible⟩ := h.visible
  have trimmed : ∀ rest, trimStart (p ++ rest) = trimStart p ++ rest := fun rest =>
    (dropWhile_append_of_mem hc visible rest).2
  have slash : ∀ a b, replaceAll emptyBody (a ++ '/' :: b)
      = replaceAll emptyBody a ++ '/' :: replaceAll emptyBody b :=
    replaceAll_emptyBody_append_cons (by decide) (by decide)
  have ne : trimStart p ≠ [] := (dropWhile_append_of_mem hc visible []).1
  rcases dropLeadingComment_append ne with dropped | kept
  · left
    intro k rest hk
    have free : '\n' ∉ k := fun mem => absurd (hk.unbroken _ mem) (by decide)
    rw [tidy, eraseBlockComments_mark h.unblocked hk, trimmed, dropped k _ free]
  · right
    intro k rest hk
    rw [tidy, eraseBlockComments_mark h.unblocked hk, trimmed, kept, slash,
      ← List.nil_append ('/' :: (k ++ _)), slash, tidy, eraseBlockComments_of_unpaired h.unblocked]
    rfl

/-! ## The statements around a comment -/

/-- Replacing empty bodies in a line keeps it on one line. -/
theorem unbroken_replaceAll_emptyBody {cs : List Char} (h : ∀ c ∈ cs, isLineBreak c = false) :
    ∀ c ∈ replaceAll emptyBody cs, isLineBreak c = false := fun c hc => by
  rcases (emptyBody_finds.replaced cs).mem hc with hc | hc
  · exact h c hc
  · have new : ∀ d ∈ [')', ';'], isLineBreak d = false := List.all_iff_forall_prop.1 rfl
    exact new c hc

section Annotations

variable {m k : List Char} (h : IsAnnotation m)
include h

theorem not_mem_of_annotates : '/' ∉ m ∧ ')' ∉ m :=
  ⟨h.not_mem (by decide) (by decide) (by decide +kernel),
    h.not_mem (by decide) (by decide) (by decide +kernel)⟩

/-- A slash before a text makes it no annotation. -/
theorem prefix_of_prefix_slash {slash : List Char} (hs : slash = [] ∨ slash = ['/'])
    (start : m <+: slash ++ k) : m <+: k := by
  rcases hs with rfl | rfl
  · exact start
  · have none := prefix_of_prefix_append_cons (a := []) (not_mem_of_annotates h).1 start
    exact none.trans List.nil_prefix

/-- Empty bodies are no part of the start of an annotation. -/
theorem prefix_of_prefix_emptyBody (start : m <+: replaceAll emptyBody k) : m <+: k :=
  (emptyBody_finds.replaced k).prefix_of_not_mem head?_of_isEmptyBody rfl
    (not_mem_of_annotates h).2 start

end Annotations

/-- A text that starts like an annotation only if a plain comment does is plain. -/
theorem annotatedPackage?_of_prefix {c k : List Char}
    (plain : annotatedPackage? (String.ofList ('/' :: '/' :: c)) = none)
    (h : ∀ m, IsAnnotation m → m <+: k → m <+: c) :
    annotatedPackage? (String.ofList ('/' :: '/' :: k)) = none := by
  by_contra some
  obtain ⟨m, annotation, start⟩ := annotatedPackage?_ne_none_iff.1 some
  exact annotatedPackage?_ne_none_iff.2 ⟨m, annotation, h m annotation start⟩ plain

section Mark

variable {p : List Char} (h : HostsComment p)
  (kept : ∀ k rest, IsWording k → tidy (p ++ '/' :: '/' :: (k ++ '\n' :: rest))
    = tidy p ++ '/' :: '/' :: replaceAll emptyBody (k ++ '\n' :: eraseBlockComments rest))
include h kept

/-- A wording that opens a body takes the brace that closes it, and what stands on the line of that
brace. -/
theorem exists_statements_crossing {q : List Char} (crosses : ClosesBody (eraseBlockComments q)) :
    ∃ xs ys, ∀ c, IsWording c → OpensBody c →
      ∃ k, annotatedPackage? (String.ofList ('/' :: '/' :: k)) = none
        ∧ statementChars (p ++ '/' :: '/' :: (c ++ '\n' :: q))
          = xs ++ (emit ('/' :: '/' :: ' ' :: k) ++ ys) := by
  obtain ⟨done, waiting, slash, hs, grouped⟩ := exists_group_mark h.endsInCode
  obtain ⟨closed, rest, hc, closes⟩ := crosses
  obtain ⟨l, ls, split⟩ := List.exists_cons_of_ne_nil
    (List.splitOnP_ne_nil isLineBreak (replaceAll emptyBody rest))
  have after : lines (';' :: replaceAll emptyBody rest) = (';' :: l) :: ls :=
    lines_append_of_unbroken (a := [';']) (by decide) split
  refine ⟨done, group waiting (ls.flatMap Lexeme.ofLine), fun c wording opens => ?_⟩
  obtain ⟨front, gap, inner, hg, hi, rfl⟩ := opens
  have unbroken : ∀ c ∈ replaceAll emptyBody front ++ [')'], isLineBreak c = false :=
    List.forall_mem_append.2 ⟨unbroken_replaceAll_emptyBody fun d hd =>
      wording.unbroken d (List.mem_append_left _ hd), by decide⟩
  refine ⟨slash ++ (replaceAll emptyBody front ++ [')'] ++ ';' :: l),
    annotatedPackage?_of_prefix wording.plain fun m annotation start => ?_, ?_⟩
  · have start := prefix_of_prefix_slash annotation hs start
    rw [List.append_assoc] at start
    have start := prefix_of_prefix_append_cons (not_mem_of_annotates annotation).2 start
    exact (prefix_of_prefix_emptyBody annotation start).trans (List.prefix_append _ _)
  · rw [statementChars, kept _ q wording, closes, replaceAll_emptyBody_crossing hg hi hc,
      grouped unbroken after]

/-- Any other wording ends with its line. -/
theorem exists_statements_line (q : List Char) :
    ∃ xs ys, ∀ c, IsWording c → ¬ (OpensBody c ∧ ClosesBody (eraseBlockComments q)) →
      ∃ k, annotatedPackage? (String.ofList ('/' :: '/' :: k)) = none
        ∧ statementChars (p ++ '/' :: '/' :: (c ++ '\n' :: q))
          = xs ++ (emit ('/' :: '/' :: ' ' :: k) ++ ys) := by
  obtain ⟨done, waiting, slash, hs, grouped⟩ := exists_group_mark h.endsInCode
  have after : lines ('\n' :: replaceAll emptyBody (eraseBlockComments q))
      = [] :: lines (replaceAll emptyBody (eraseBlockComments q)) :=
    List.splitOnP_append_cons [] _ (by decide : isLineBreak '\n' = true)
  refine ⟨done, group waiting ((lines (replaceAll emptyBody (eraseBlockComments q))).flatMap
    Lexeme.ofLine), fun c wording apart => ?_⟩
  refine ⟨slash ++ (replaceAll emptyBody c ++ []),
    annotatedPackage?_of_prefix wording.plain fun m annotation start => ?_, ?_⟩
  · have start := prefix_of_prefix_slash annotation hs start
    rw [List.append_nil] at start
    exact prefix_of_prefix_emptyBody annotation start
  · rw [statementChars, kept c q wording, replaceAll_emptyBody_line apart,
      grouped (unbroken_replaceAll_emptyBody wording.unbroken) after]

/-- **The statements before and after a wording do not depend on its words**, but for whether it
opens a body. -/
theorem exists_statements_mark (opens : Prop) (q : List Char) :
    ∃ xs ys, ∀ c, IsWording c → (OpensBody c ↔ opens) →
      ∃ k, annotatedPackage? (String.ofList ('/' :: '/' :: k)) = none
        ∧ statementChars (p ++ '/' :: '/' :: (c ++ '\n' :: q))
          = xs ++ (emit ('/' :: '/' :: ' ' :: k) ++ ys) := by
  by_cases crossing : opens ∧ ClosesBody (eraseBlockComments q)
  · obtain ⟨xs, ys, found⟩ := exists_statements_crossing h kept crossing.2
    exact ⟨xs, ys, fun c wording same => found c wording (same.2 crossing.1)⟩
  · obtain ⟨xs, ys, found⟩ := exists_statements_line h kept q
    exact ⟨xs, ys, fun c wording same => found c wording fun both =>
      crossing ⟨same.1 both.1, both.2⟩⟩

end Mark

end Source

/-! ## Comments that say nothing -/

/-- A statement that is a comment and annotates nothing. -/
structure Statement.IsPlainComment (text : String) : Prop where
  kind : (ofText text).kind = .comment
  plain : annotatedPackage? text = none

/-- A plain comment leaves the draft as it is. -/
theorem Progress.next_of_isPlainComment {text : String} (h : Statement.IsPlainComment text)
    (p : Progress) : p.next text = some ⟨p.draft, some .comment⟩ := by
  have kept : ∀ d : Draft, d.annotate text = ⟨d, none⟩ := fun d => by
    rw [Draft.annotate, h.plain]
  rw [next, Draft.accept, h.kind, Statement.text_ofText, kept]
  simp

/-- **The words of a plain comment do not matter.** -/
theorem Document.ofStatements_of_isPlainComment {a b : String} (ha : Statement.IsPlainComment a)
    (hb : Statement.IsPlainComment b) (xs ys : List String) :
    ofStatements (xs ++ a :: ys) = ofStatements (xs ++ b :: ys) := by
  cases run : Progress.start.run xs with
  | none =>
    obtain ⟨before, text, after, q, rfl, ran, refused⟩ := Draft.exists_refused run
    rw [List.append_assoc, List.append_assoc, List.cons_append, List.cons_append,
      ofStatements_of_refused ran refused, ofStatements_of_refused ran refused]
  | some p =>
    have next : ∀ {text}, Statement.IsPlainComment text →
        Progress.start.run (xs ++ [text]) = some ⟨p.draft, some .comment⟩ := fun h => by
      rw [Progress.run_append_of_run run, Progress.run_cons_of_next (p.next_of_isPlainComment h)]
      rfl
    have length : (xs ++ [a]).length = (xs ++ [b]).length + 0 := by simp
    have same := ofStatements_append_of_run (next hb) (next ha) length ys
    rw [List.append_assoc, List.append_assoc, List.singleton_append, List.singleton_append] at same
    rw [same]
    cases ofStatements (xs ++ b :: ys) with
    | ok d => rfl
    | error e => exact congrArg Except.error (ParseError.later_zero e)

/-- **The statement of a plain comment is plain.** -/
theorem Source.exists_emit_comment {k : List Char}
    (plain : annotatedPackage? (String.ofList ('/' :: '/' :: k)) = none) :
    ∃ s, emit ('/' :: '/' :: ' ' :: k) = [s] ∧ Statement.IsPlainComment (String.ofList s) := by
  have normal := normalize_comment k
  refine ⟨_, emit_of_normalize rfl (by simp [normal]), ?_, annotatedPackage?_normalize plain⟩
  refine Statement.ofText_of_isComment ?_
  rw [String.toList_ofList, normal]
  rfl

namespace Document

/-- **Comments that open bodies alike are read alike**, whatever their words. -/
theorem ofText_eq_of_isWording {p : String} (h : HostsComment p.toList) {c₁ c₂ : String}
    (w₁ : IsWording c₁.toList) (w₂ : IsWording c₂.toList)
    (alike : OpensBody c₁.toList ↔ OpensBody c₂.toList) (q : String) :
    ofText (p ++ "//" ++ c₁ ++ "\n" ++ q) = ofText (p ++ "//" ++ c₂ ++ "\n" ++ q) := by
  have chars : ∀ c : String, (p ++ "//" ++ c ++ "\n" ++ q).toList
      = p.toList ++ '/' :: '/' :: (c.toList ++ '\n' :: q.toList) := fun c => by
    simp [String.toList_append]
  rw [ofText, ofText, statements, statements, chars, chars]
  rcases tidy_mark h with dropped | kept
  · rw [statementChars, statementChars, dropped _ _ w₁, dropped _ _ w₂]
  · obtain ⟨xs, ys, around⟩ := exists_statements_mark h kept (OpensBody c₂.toList) q.toList
    obtain ⟨k₁, plain₁, read₁⟩ := around _ w₁ alike
    obtain ⟨k₂, plain₂, read₂⟩ := around _ w₂ Iff.rfl
    obtain ⟨s₁, emitted₁, comment₁⟩ := exists_emit_comment plain₁
    obtain ⟨s₂, emitted₂, comment₂⟩ := exists_emit_comment plain₂
    rw [read₁, read₂, emitted₁, emitted₂]
    simp only [List.map_append, List.singleton_append, List.map_cons]
    exact ofStatements_of_isPlainComment comment₁ comment₂ _ _

/-! ## The exception -/

theorem hostsComment_message : HostsComment "message A \x7b".toList where
  visible := ⟨'m', by decide, by decide⟩
  unblocked := by decide
  endsInCode := ⟨by decide, by decide⟩

theorem opensBody_brace : OpensBody ")\x7b".toList :=
  ⟨[], [], [], by simp, by simp, rfl⟩

theorem not_opensBody_nil : ¬ OpensBody "".toList := by
  rintro ⟨front, gap, inner, -, -, same⟩
  exact absurd same (by simp)

/-- A comment that opens a body takes the brace of the message it stands in, and another one does
not. -/
theorem ofText_of_opensBody {c₁ c₂ : String} (w₁ : IsWording c₁.toList) (w₂ : IsWording c₂.toList)
    (opens : OpensBody c₁.toList) (shut : ¬ OpensBody c₂.toList) :
    (∃ e, ofText ("message A \x7b" ++ "//" ++ c₁ ++ "\n" ++ "\x7d") = .error e)
      ∧ ∃ d, ofText ("message A \x7b" ++ "//" ++ c₂ ++ "\n" ++ "\x7d") = .ok d := by
  have brace : IsWording ")\x7b".toList := ⟨by decide, by decide, by decide⟩
  have none : IsWording "".toList := ⟨by decide, by decide, by decide⟩
  rw [ofText_eq_of_isWording hostsComment_message w₁ brace (iff_of_true opens opensBody_brace),
    ofText_eq_of_isWording hostsComment_message w₂ none (iff_of_false shut not_opensBody_nil)]
  exact ⟨⟨_, by rfl⟩, ⟨_, by rfl⟩⟩

/-- **The words of a line comment do not matter just if they open a body in both or in neither.**
Where they do in one alone, there is a text that is a document with the one and none with the other.
-/
theorem ofText_comment_wording {c₁ c₂ : String} (w₁ : IsWording c₁.toList)
    (w₂ : IsWording c₂.toList) :
    ((OpensBody c₁.toList ↔ OpensBody c₂.toList) → ∀ p q : String, HostsComment p.toList →
        ofText (p ++ "//" ++ c₁ ++ "\n" ++ q) = ofText (p ++ "//" ++ c₂ ++ "\n" ++ q))
    ∧ (¬ (OpensBody c₁.toList ↔ OpensBody c₂.toList) → ∃ p q : String, HostsComment p.toList
        ∧ ∃ d e, (ofText (p ++ "//" ++ c₁ ++ "\n" ++ q) = .ok d
              ∧ ofText (p ++ "//" ++ c₂ ++ "\n" ++ q) = .error e)
            ∨ (ofText (p ++ "//" ++ c₁ ++ "\n" ++ q) = .error e
              ∧ ofText (p ++ "//" ++ c₂ ++ "\n" ++ q) = .ok d)) := by
  refine ⟨fun alike p q h => ofText_eq_of_isWording h w₁ w₂ alike q, fun unlike => ?_⟩
  refine ⟨"message A \x7b", "\x7d", hostsComment_message, ?_⟩
  by_cases opens : OpensBody c₁.toList
  · have shut : ¬ OpensBody c₂.toList := fun other => unlike (by simp [opens, other])
    obtain ⟨⟨e, failed⟩, d, read⟩ := ofText_of_opensBody w₁ w₂ opens shut
    exact ⟨d, e, .inr ⟨failed, read⟩⟩
  · have other : OpensBody c₂.toList := by
      by_contra shut
      exact unlike (by simp [opens, shut])
    obtain ⟨⟨e, failed⟩, d, read⟩ := ofText_of_opensBody w₂ w₁ other opens
    exact ⟨d, e, .inl ⟨read, failed⟩⟩

/-- A note on a method, with a body and without. -/
theorem ofText_comment_wording_method :
    IsWording " f() \x7b".toList ∧ IsWording " f()".toList
    ∧ ∃ p q : String, HostsComment p.toList
      ∧ ∃ d e, (ofText (p ++ "//" ++ " f() \x7b" ++ "\n" ++ q) = .ok d
            ∧ ofText (p ++ "//" ++ " f()" ++ "\n" ++ q) = .error e)
          ∨ (ofText (p ++ "//" ++ " f() \x7b" ++ "\n" ++ q) = .error e
            ∧ ofText (p ++ "//" ++ " f()" ++ "\n" ++ q) = .ok d) := by
  have opening : IsWording " f() \x7b".toList := ⟨by decide, by decide, by decide⟩
  have plain : IsWording " f()".toList := ⟨by decide, by decide, by decide⟩
  have opens : OpensBody " f() \x7b".toList := ⟨" f(".toList, [' '], [], by decide, by simp, rfl⟩
  have shut : ¬ OpensBody " f()".toList := by
    rintro ⟨front, gap, inner, -, -, same⟩
    have brace : '{' ∈ " f()".toList := same ▸ by simp
    exact absurd brace (by decide)
  exact ⟨opening, plain, (ofText_comment_wording opening plain).2 fun alike =>
    shut (alike.1 opens)⟩

/-- A message with a comment that ends in an opening brace is not read, though the comment neither
annotates an import nor stands in quotes; without the brace it is. -/
theorem ofText_comment_takes_brace :
    ¬ "/*".toList <:+: "message A \x7b".toList
    ∧ (∃ c ∈ "message A \x7b".toList, isBlank c = false)
    ∧ EndsInCode "message A \x7b".toList
    ∧ (∀ c ∈ " f() \x7b".toList, isLineBreak c = false)
    ∧ (∀ c ∈ " f()".toList, isLineBreak c = false)
    ∧ annotatedPackage? ("//" ++ " f() \x7b") = none ∧ annotatedPackage? ("//" ++ " f()") = none
    ∧ ofText ("message A \x7b" ++ "//" ++ " f() \x7b" ++ "\n" ++ "\x7d")
        = .error ⟨.unclosed ["A"], none⟩
    ∧ ofText ("message A \x7b" ++ "//" ++ " f()" ++ "\n" ++ "\x7d")
        = .ok ⟨"", "", [], [.message "A" []], []⟩ :=
  ⟨unpaired_iff.1 (by decide), ⟨'m', by decide, by decide⟩, ⟨by decide, by decide⟩, by decide,
    by decide, by decide, by decide, by rfl, by rfl⟩

end Document

end ProtoSchema
