import Mathlib.Logic.Relation
import ProtoSchema.Proofs.Source.Spacing

/-!
# Proofs/Source/Layout — a text laid out anew has the same statements

A text without comments is read character by character, its empty bodies out of the way
(`statementChars_of_unpaired`): a delimiter ends the text that waits, and every other character is
added to it.  This reading does not depend on which blanks stand in a stretch of them, nor on blanks
beside a brace, a semicolon or an equals sign (`gather_respaced`), and such changes bring in neither
comments nor empty bodies (`Plain.relaid`).
-/

namespace ProtoSchema.Source

open Text Text.Letterwise

/-! ## Other blanks -/

/-- The characters beside which blanks do not count. -/
def isSign (c : Char) : Bool := c = '=' || (Lexeme.ofDelimiter? c).isSome

/-- **Blanks in other blanks' place**: a stretch of them for another, or other blanks, or none, at
either side of a brace, a semicolon or an equals sign. -/
inductive Respaced : List Char → List Char → Prop
  | blanks {u v : List Char} : u ≠ [] → v ≠ [] →
      (∀ c ∈ u, isBlank c = true) → (∀ c ∈ v, isBlank c = true) → Respaced u v
  | sign {d : Char} {u v w x : List Char} : isSign d = true →
      (∀ c ∈ u, isBlank c = true) → (∀ c ∈ v, isBlank c = true) →
      (∀ c ∈ w, isBlank c = true) → (∀ c ∈ x, isBlank c = true) →
      Respaced (u ++ d :: v) (w ++ d :: x)

/-- **The layout changes in one place.** -/
inductive Relaid : List Char → List Char → Prop
  | mk {u v : List Char} (a b : List Char) : Respaced u v → Relaid (a ++ u ++ b) (a ++ v ++ b)

variable {u v a b cs ds pending waiting : List Char}

theorem filter_of_blanks (blank : ∀ c ∈ u, isBlank c = true) : u.filter (!isBlank ·) = [] :=
  List.filter_eq_nil_iff.2 fun c hc => by simp [blank c hc]

namespace Respaced

theorem symm (h : Respaced u v) : Respaced v u := by
  cases h with
  | blanks hu hv blankU blankV => exact .blanks hv hu blankV blankU
  | sign hd blankU blankV blankW blankX => exact .sign hd blankW blankX blankU blankV

theorem ne_nil (h : Respaced u v) : u ≠ [] := by
  cases h with
  | blanks hu => exact hu
  | sign => simp

/-- Blanks apart, the characters are the same. -/
theorem filter_eq (h : Respaced u v) : u.filter (!isBlank ·) = v.filter (!isBlank ·) := by
  cases h with
  | blanks _ _ blankU blankV => rw [filter_of_blanks blankU, filter_of_blanks blankV]
  | sign _ blankU blankV blankW blankX =>
    rw [List.filter_append, List.filter_append, List.filter_cons, List.filter_cons,
      filter_of_blanks blankU, filter_of_blanks blankV, filter_of_blanks blankW,
      filter_of_blanks blankX]

/-- Only blanks and signs stand in such a stretch. -/
theorem not_mem {c : Char} (h : Respaced u v) (blank : isBlank c = false)
    (sign : isSign c = false) : c ∉ u := by
  cases h with
  | blanks _ _ blankU => exact not_mem_of_blank blankU blank
  | sign hd blankU blankV =>
    simp only [List.mem_append, List.mem_cons, not_mem_of_blank blankU blank,
      not_mem_of_blank blankV blank, or_false, false_or]
    rintro rfl
    exact Bool.false_ne_true (sign.symm.trans hd)

end Respaced

/-! ## Reading plain text -/

/-- **The statements of plain text**, the text `pending` before it. -/
def gather (pending : List Char) : List Char → List (List Char)
  | [] => emit pending
  | c :: cs => match Lexeme.ofDelimiter? c with
    | some l => group pending [l] ++ gather [] cs
    | none => gather (pending ++ [c]) cs

theorem gather_cons_of_some {c : Char} {l : Lexeme} (h : Lexeme.ofDelimiter? c = some l)
    (pending cs : List Char) : gather pending (c :: cs) = group pending [l] ++ gather [] cs := by
  rw [gather, h]

theorem gather_cons_of_none {c : Char} (h : Lexeme.ofDelimiter? c = none)
    (pending cs : List Char) : gather pending (c :: cs) = gather (pending ++ [c]) cs := by
  rw [gather, h]

theorem SameForm.gather_eq : ∀ {cs pending waiting : List Char},
    SameForm pending waiting → gather pending cs = gather waiting cs
  | [], _, _, h => h.emit_eq
  | c :: cs, pending, waiting, h => by
      cases delimiter : Lexeme.ofDelimiter? c with
      | some l => rw [gather_cons_of_some delimiter, gather_cons_of_some delimiter, h.group_eq]
      | none =>
        rw [gather_cons_of_none delimiter, gather_cons_of_none delimiter, (h.append [c]).gather_eq]

/-- Text without delimiters waits. -/
theorem gather_append_of_none (b : List Char) : ∀ {a pending : List Char},
    (∀ c ∈ a, Lexeme.ofDelimiter? c = none) → gather pending (a ++ b) = gather (pending ++ a) b
  | [], _, _ => by rw [List.nil_append, List.append_nil]
  | c :: a, pending, h => by
      obtain ⟨hc, ha⟩ := List.forall_mem_cons.1 h
      rw [List.cons_append, gather_cons_of_none hc, gather_append_of_none b ha, List.append_assoc,
        List.singleton_append]

/-- A delimiter leaves nothing to wait. -/
theorem group_delimiter {c : Char} {l : Lexeme} (h : Lexeme.ofDelimiter? c = some l)
    (pending : List Char) (rest : List Lexeme) :
    group pending (l :: rest) = group pending [l] ++ group [] rest := by
  have nothing : group [] [] = [] := emit_of_blanks (by simp)
  rcases Lexeme.cases_of_ofDelimiter? h with ⟨-, rfl⟩ | ⟨-, rfl⟩ | ⟨-, rfl⟩
  all_goals simp only [group.eq_3, group.eq_4, group.eq_5, nothing, List.append_nil]

/-- Blanks that wait when a delimiter comes do not count. -/
theorem group_append_delimiter {c : Char} {l : Lexeme} (h : Lexeme.ofDelimiter? c = some l)
    (blank : ∀ c ∈ u, isBlank c = true) (pending : List Char) :
    group (pending ++ u) [l] = group pending [l] := by
  have ended : emit (pending ++ u) = emit pending := by
    rw [emit, normalize_append_blanks blank, emit]
  rcases Lexeme.cases_of_ofDelimiter? h with ⟨-, rfl⟩ | ⟨-, rfl⟩ | ⟨-, rfl⟩
  · have same := sameForm_respace (u := u ++ [' ']) (v := [' ']) (by simp) (by simp)
      (List.forall_mem_append.2 ⟨blank, forall_mem_space⟩) forall_mem_space pending
    have opened := (same.append ['{']).emit_eq
    simp only [List.append_assoc, List.singleton_append] at opened
    simp only [group.eq_3, List.append_assoc, opened]
  · simp only [group.eq_4, ended]
  · simp only [group.eq_5, ended]

/-- **The reading of plain text does not depend on such blanks.** -/
theorem gather_respaced (h : Respaced u v) (b pending : List Char) :
    gather pending (u ++ b) = gather pending (v ++ b) := by
  have plain : ∀ {u : List Char}, (∀ c ∈ u, isBlank c = true) →
      ∀ c ∈ u, Lexeme.ofDelimiter? c = none :=
    fun blank c hc => ofDelimiter?_of_isBlank (blank c hc)
  cases h with
  | blanks hu hv blankU blankV =>
    rw [gather_append_of_none b (plain blankU), gather_append_of_none b (plain blankV)]
    exact (sameForm_respace hu hv blankU blankV pending).gather_eq
  | @sign d _ _ _ _ hd blankU blankV blankW blankX =>
    -- Either way the sign alone is read.
    have bare : ∀ {u v : List Char}, (∀ c ∈ u, isBlank c = true) → (∀ c ∈ v, isBlank c = true) →
        gather pending (u ++ d :: v ++ b) = gather pending (d :: b) := fun {u v} blankU blankV => by
      cases delimiter : Lexeme.ofDelimiter? d with
      | some l =>
        rw [List.append_assoc, List.cons_append, gather_append_of_none _ (plain blankU),
          gather_cons_of_some delimiter, gather_cons_of_some delimiter,
          group_append_delimiter delimiter blankU, gather_append_of_none b (plain blankV)]
        have same := sameForm_blanks_append blankV []
        rw [List.append_nil] at same
        rw [List.nil_append, same.gather_eq]
      | none =>
        obtain rfl : d = '=' := by simpa [isSign, delimiter] using hd
        have all : ∀ c ∈ u ++ '=' :: v, Lexeme.ofDelimiter? c = none :=
          List.forall_mem_append.2 ⟨plain blankU, List.forall_mem_cons.2 ⟨rfl, plain blankV⟩⟩
        rw [gather_append_of_none b all, gather_cons_of_none rfl]
        exact (sameForm_equals blankU blankV pending).gather_eq
    rw [bare blankU blankV, bare blankW blankX]

theorem sameForm_space : SameForm [] [' '] := by
  have same := sameForm_blanks_append forall_mem_space []
  exact same.symm

/-- **Code is read alike by its characters and by its lexemes.** -/
theorem exists_gather_append : ∀ a pending : List Char, ∃ done waiting t ls,
    Lexeme.ofCode a = .text t :: ls
      ∧ (∀ b, gather pending (a ++ b) = done ++ gather waiting b)
      ∧ ∀ rest, group (pending ++ t) (ls ++ rest) = done ++ group waiting rest
  | [], pending => ⟨[], pending, [], [], rfl, fun _ => rfl, fun _ => by rw [List.append_nil]; rfl⟩
  | c :: a, pending => by
      cases delimiter : Lexeme.ofDelimiter? c with
      | some l =>
        -- What follows a delimiter is read as after the space in front of a text piece.
        obtain ⟨done, waiting, t, ls, code, chars, lexemes⟩ := exists_gather_append a [' ']
        refine ⟨group pending [l] ++ done, waiting, [], l :: .text t :: ls, ?_, fun b => ?_,
          fun rest => ?_⟩
        · rw [Lexeme.ofCode_cons_of_some delimiter, code]
        · rw [List.cons_append, gather_cons_of_some delimiter, sameForm_space.gather_eq, chars,
            List.append_assoc]
        · rw [List.append_nil, List.cons_append, group_delimiter delimiter, List.append_assoc,
            ← lexemes]
          rfl
      | none =>
        obtain ⟨done, waiting, t, ls, code, chars, lexemes⟩ :=
          exists_gather_append a (pending ++ [c])
        refine ⟨done, waiting, c :: t, ls, ?_, fun b => ?_, fun rest => ?_⟩
        · rw [Lexeme.ofCode_cons_of_none delimiter, code]
          rfl
        · rw [List.cons_append, gather_cons_of_none delimiter, chars]
        · rw [List.append_cons, lexemes]

/-- Line by line the lexemes of code are read as its characters are. -/
theorem group_flatMap_ofCode (cs pending : List Char) :
    group pending ((lines cs).flatMap Lexeme.ofCode) = gather (pending ++ [' ']) cs := by
  revert pending
  refine splitOnP_induction (p := isLineBreak) (motive := fun cs ls => ∀ pending,
    group pending (ls.flatMap Lexeme.ofCode) = gather (pending ++ [' ']) cs)
    (fun cs _ pending => ?_) (fun a s b _ sep ih pending => ?_) cs
  · obtain ⟨done, waiting, t, ls, code, chars, lexemes⟩ :=
      exists_gather_append cs (pending ++ [' '])
    have chars := chars []
    have lexemes := lexemes []
    rw [List.append_nil] at chars lexemes
    rw [List.flatMap_singleton, code, chars, gather, group, List.append_cons, lexemes, group]
  · obtain ⟨done, waiting, t, ls, code, chars, lexemes⟩ :=
      exists_gather_append a (pending ++ [' '])
    have blank := isBlank_of_isLineBreak sep
    have same : SameForm (waiting ++ [' ']) (waiting ++ [s]) :=
      sameForm_respace (by simp) (by simp) forall_mem_space (by simp [blank]) waiting
    rw [List.flatMap_cons, code, List.cons_append, group, List.append_cons, lexemes, ih, chars,
      gather_cons_of_none (ofDelimiter?_of_isBlank blank), same.gather_eq]

/-- **A change of layout is not read.** -/
theorem gather_relaid (r : Relaid cs ds) (pending : List Char) :
    gather pending cs = gather pending ds := by
  obtain ⟨a, b, change⟩ := r
  obtain ⟨done, waiting, -, -, -, chars, -⟩ := exists_gather_append a pending
  rw [List.append_assoc, List.append_assoc, chars, chars, gather_respaced change]

/-! ## Plain text -/

/-- **A body with nothing in it, after a closing parenthesis**, on any number of lines. -/
def IsLooseBody (p : List Char) : Prop :=
  ∃ before inner, (∀ c ∈ before, isBlank c = true) ∧ (∀ c ∈ inner, isBlank c = true)
    ∧ p = ')' :: (before ++ '{' :: (inner ++ ['}']))

theorem IsEmptyBody.isLooseBody {p : List Char} (h : IsEmptyBody p) : IsLooseBody p := by
  obtain ⟨gap, inner, hg, hi, rfl⟩ := h
  exact ⟨gap, inner, fun c hc => isBlank_of_isGap (hg c hc), hi, rfl⟩

/-- Whether there is such a body can be seen with all blanks left out. -/
theorem exists_isLooseBody_iff : (∃ p, IsLooseBody p ∧ p <:+: cs)
    ↔ [')', '{', '}'] <:+: cs.filter (!isBlank ·) := by
  constructor
  · rintro ⟨_, ⟨before, inner, hb, hi, rfl⟩, part⟩
    have marks : (')' :: (before ++ '{' :: (inner ++ ['}']))).filter (!isBlank ·)
        = [')', '{', '}'] := by
      simp only [List.filter_cons, List.filter_append, filter_of_blanks hb, filter_of_blanks hi]
      rfl
    exact marks ▸ part.filter _
  · rintro ⟨x, y, split⟩
    rw [List.append_assoc] at split
    obtain ⟨a, b, rfl, -, rest⟩ := List.filter_eq_append_iff.1 split.symm
    obtain ⟨skipped, b, rfl, -, -, rest⟩ := List.filter_eq_cons_iff.1 rest
    obtain ⟨before, b, rfl, hb, -, rest⟩ := List.filter_eq_cons_iff.1 rest
    obtain ⟨inner, b, rfl, hi, -, -⟩ := List.filter_eq_cons_iff.1 rest
    exact ⟨_, ⟨before, inner, by simpa using hb, by simpa using hi, rfl⟩, a ++ skipped, b, by simp⟩

/-- **A text without comments and without such bodies.** -/
structure Plain (cs : List Char) : Prop where
  line : Unpaired '/' '/' cs
  block : Unpaired '/' '*' cs
  bodies : ∀ p, IsLooseBody p → ¬ p <:+: cs

/-- **A text without comments is read character by character**, its empty bodies out of the way. -/
theorem statementChars_of_unpaired (line : Unpaired '/' '/' cs) (block : Unpaired '/' '*' cs) :
    statementChars cs = gather [] (replaceAll emptyBody cs) := by
  have front : ∀ c ∈ cs.takeWhile isBlank, isBlank c = true := fun _ => List.mem_takeWhile_imp
  have copied : replaceAll emptyBody cs = cs.takeWhile isBlank ++ tidy cs := by
    rw [tidy_of_unpaired line block,
      ← copies_emptyBody (not_mem_of_blank front (by decide)) (trimStart cs)]
    exact congrArg (replaceAll emptyBody) List.takeWhile_append_dropWhile.symm
  have trimmed : statementChars cs = group [] (Lexeme.ofText (replaceAll emptyBody cs)) := by
    rw [copied, group_ofText_blanks_append front]
    rfl
  rw [trimmed, ofText_of_unpaired (unpaired_emptyBody line), group_flatMap_ofCode,
    List.nil_append, ← sameForm_space.gather_eq]

/-- **Plain text is read character by character.** -/
theorem statementChars_of_plain (h : Plain cs) : statementChars cs = gather [] cs := by
  rw [statementChars_of_unpaired h.line h.block, (emptyBody_finds.replaced cs).eq_of_absent]
  exact fun p hp => h.bodies p hp.isLooseBody

/-- **A change of layout brings in neither comments nor empty bodies.** -/
theorem Plain.relaid (h : Plain cs) (r : Relaid cs ds) : Plain ds := by
  obtain ⟨a, b, change⟩ := r
  have slash := change.not_mem (c := '/') (by decide) (by decide)
  have star := change.not_mem (c := '*') (by decide) (by decide)
  have slash' := change.symm.not_mem (c := '/') (by decide) (by decide)
  have star' := change.symm.not_mem (c := '*') (by decide) (by decide)
  refine ⟨?_, ?_, fun p hp part => ?_⟩
  · rw [unpaired_append_stretch change.symm.ne_nil slash' slash',
      ← unpaired_append_stretch change.ne_nil slash slash]
    exact h.line
  · rw [unpaired_append_stretch change.symm.ne_nil slash' star',
      ← unpaired_append_stretch change.ne_nil slash star]
    exact h.block
  · have marks := exists_isLooseBody_iff.1 ⟨p, hp, part⟩
    rw [List.filter_append, List.filter_append, ← change.filter_eq, ← List.filter_append,
      ← List.filter_append] at marks
    obtain ⟨q, hq, part⟩ := exists_isLooseBody_iff.2 marks
    exact h.bodies q hq part

/-! ## Any number of changes -/

theorem plain_and_statementChars_of_relaid (plain : Plain cs)
    (layout : Relation.ReflTransGen Relaid cs ds) :
    Plain ds ∧ statementChars ds = statementChars cs := by
  induction layout with
  | refl => exact ⟨plain, rfl⟩
  | tail _ change ih =>
    obtain ⟨before, same⟩ := ih
    have after := before.relaid change
    refine ⟨after, ?_⟩
    rw [statementChars_of_plain after, ← gather_relaid change, ← statementChars_of_plain before,
      same]

/-- **Layout does not matter**: a text without comments and empty bodies has the same statements
however often its blanks are changed. -/
theorem statements_relaid {text text' : String} (plain : Plain text.toList)
    (layout : Relation.ReflTransGen Relaid text.toList text'.toList) :
    statements text' = statements text := by
  rw [statements, statements, (plain_and_statementChars_of_relaid plain layout).2]

/-- A method on one line or on three makes the same statement. -/
theorem statements_on_three_lines :
    statements "rpc A(B)\u3000\r\nreturns (C)\n;" = statements "rpc A(B) returns (C);" := by
  have plain : Plain "rpc A(B) returns (C);".toList :=
    ⟨by decide, by decide, fun p hp part => by
      have marks := exists_isLooseBody_iff.1 ⟨p, hp, part⟩
      exact unpaired_iff.1 (by decide) (List.IsInfix.trans ⟨[')'], [], rfl⟩ marks)⟩
  have broken : Relaid "rpc A(B) returns (C);".toList "rpc A(B)\u3000\r\nreturns (C);".toList :=
    .mk "rpc A(B)".toList "returns (C);".toList
      (.blanks (u := [' ']) (v := ['\u3000', '\r', '\n']) (by simp) (by simp) (by decide)
        (by decide))
  have ended : Relaid "rpc A(B)\u3000\r\nreturns (C);".toList
      "rpc A(B)\u3000\r\nreturns (C)\n;".toList :=
    .mk "rpc A(B)\u3000\r\nreturns (C)".toList []
      (.sign (d := ';') (u := []) (v := []) (w := ['\n']) (x := []) (by decide) (by simp)
        (by simp) (by decide) (by simp))
  exact statements_relaid plain (.tail (.single broken) ended)

end ProtoSchema.Source
