import ProtoSchema.Proofs.Source.Literal
import ProtoSchema.Proofs.Source.Spacing

/-!
# Proofs/Source/OptionLine — a text with an option on a line in front

A line `option n = "s";` with a literal that holds no delimiter makes one statement, and the text
after it makes the statements that it would make by itself (`statementChars_optionLine`).  Only a
comment that leads the text is dropped there and makes a statement here.
-/

namespace ProtoSchema.Source

open Text Text.Letterwise

/-! ## The line of an option -/

/-- An option with a literal in quotes, without its semicolon. -/
def optionLine (n s : List Char) : List Char :=
  "option".toList ++ ' ' :: (n ++ ' ' :: '=' :: ' ' :: '"' :: (s ++ ['"']))

/-- The line with its semicolon in front of a text. -/
theorem optionLine_append (n s q : List Char) :
    optionLine n s ++ ';' :: '\n' :: q
      = "option ".toList ++ (n ++ (" = \"".toList ++ (s ++ ("\";\n".toList ++ q)))) := by
  have regroup : ∀ word : List Char,
      (word ++ ' ' :: (n ++ ' ' :: '=' :: ' ' :: '"' :: (s ++ ['"']))) ++ ';' :: '\n' :: q
        = word ++ ' ' :: (n ++ ' ' :: '=' :: ' ' :: '"' :: (s ++ '"' :: ';' :: '\n' :: q)) := by
    simp
  exact regroup _

/-- A name: word characters, and at least one. -/
structure IsName (n : List Char) : Prop where
  ne_nil : n ≠ []
  word : ∀ c ∈ n, isWordChar c = true

/-- What stands between quotes: neither quotes nor backslashes, on one line, and no `/*` in it. -/
structure IsLiteralText (s : List Char) : Prop where
  unquoted : ∀ c ∈ s, isQuote c = false
  unescaped : '\\' ∉ s
  unbroken : ∀ c ∈ s, isLineBreak c = false
  unblocked : Unpaired '/' '*' s

theorem IsName.not_mem {n : List Char} (h : IsName n) {d : Char} (hd : isWordChar d = false) :
    d ∉ n := fun mem => by simp [h.word d mem] at hd

/-- A name is a bare word. -/
theorem IsName.isBare {n : List Char} (h : IsName n) : IsBare n := by
  refine ⟨h.ne_nil, fun c hc => ?_⟩
  have other : ∀ d, isWordChar d = false → c ≠ d := fun d hd =>
    ne_of_mem_of_not_mem hc (h.not_mem hd)
  simp only [isBareChar, isBlank_of_isWordChar (h.word c hc), other '/' (by decide +kernel),
    other '{' (by decide +kernel), other '}' (by decide +kernel), other ';' (by decide +kernel),
    other '=' (by decide +kernel), other '(' (by decide +kernel), other ')' (by decide +kernel)]
  rfl

section Line

variable {n s : List Char}

/-- What holds of the characters of name and literal, and of those around them, holds of the line.
-/
theorem forall_mem_optionLine {p : Char → Prop} (word : ∀ c ∈ "option".toList, p c)
    (frame : ∀ c ∈ [' ', '=', '"'], p c) (hn : ∀ c ∈ n, p c) (hs : ∀ c ∈ s, p c) :
    ∀ c ∈ optionLine n s, p c := by
  have space := frame ' ' (by decide)
  have equals := frame '=' (by decide)
  have quote := frame '"' (by decide)
  refine List.forall_mem_append.2 ⟨word, List.forall_mem_cons.2 ⟨space, ?_⟩⟩
  refine List.forall_mem_append.2 ⟨hn, ?_⟩
  simpa [or_imp, forall_and, space, equals, quote] using hs

theorem undelimited_optionLine (hn : IsName n) (hs : ∀ c ∈ s, Lexeme.ofDelimiter? c = none) :
    ∀ c ∈ optionLine n s, Lexeme.ofDelimiter? c = none :=
  forall_mem_optionLine (by decide) (by decide)
    (fun c hc => ofDelimiter?_of_isBareChar (hn.isBare.2 c hc)) hs

theorem unbroken_optionLine (hn : IsName n) (hs : IsLiteralText s) :
    ∀ c ∈ optionLine n s, isLineBreak c = false :=
  forall_mem_optionLine (by decide) (by decide)
    (fun c hc => isLineBreak_of_isBareChar (hn.isBare.2 c hc)) hs.unbroken

/-- Characters that leave the quoting as it is stand in the code. -/
theorem cutFrom_append_of_next {q : Quoting} {rest code : List Char}
    (hr : cutFrom q rest = ⟨code, none⟩) : ∀ {cs : List Char},
      (∀ c ∈ cs, q.next c = q ∧ (q = .outside → c ≠ '/')) →
        cutFrom q (cs ++ rest) = ⟨cs ++ code, none⟩
  | [], _ => hr
  | c :: cs, h => by
      obtain ⟨⟨stays, other⟩, others⟩ := List.forall_mem_cons.1 h
      rw [List.cons_append, cutFrom_cons fun outside slash => absurd slash (other outside), stays,
        cutFrom_append_of_next hr others]
      rfl

/-- The quotes keep the literal from being cut at a comment mark. -/
theorem cutComment_optionLine (hn : IsName n) (hs : IsLiteralText s) :
    cutComment (optionLine n s ++ [';']) = ⟨optionLine n s ++ [';'], none⟩ := by
  have literal : cutFrom (.inside '"') (s ++ ['"', ';']) = ⟨s ++ ['"', ';'], none⟩ := by
    refine cutFrom_append_of_next rfl fun c hc => ⟨?_, nofun⟩
    have escape : c ≠ '\\' := ne_of_mem_of_not_mem hc hs.unescaped
    have quote : c ≠ '"' := by
      rintro rfl
      exact absurd (hs.unquoted _ hc) (by decide)
    simp [Quoting.next, escape, quote]
  have quoted : cutFrom .outside ('"' :: (s ++ ['"', ';'])) = ⟨'"' :: (s ++ ['"', ';']), none⟩ := by
    rw [cutFrom_cons fun _ e => absurd e (by decide)]
    change (cutFrom (.inside '"') _).cons '"' = _
    rw [literal]
    rfl
  have before : ∀ c ∈ "option".toList ++ ' ' :: (n ++ [' ', '=', ' ']),
      Quoting.outside.next c = .outside ∧ (Quoting.outside = .outside → c ≠ '/') := by
    refine List.forall_mem_append.2 ⟨by decide, List.forall_mem_cons.2 ⟨by decide,
      List.forall_mem_append.2 ⟨fun c hc => ?_, by decide⟩⟩⟩
    have other : ∀ d, isWordChar d = false → c ≠ d := fun d hd =>
      ne_of_mem_of_not_mem hc (hn.not_mem hd)
    simp [Quoting.next, isQuote, other '"' (by decide +kernel), other '\'' (by decide +kernel),
      other '/' (by decide +kernel)]
  have regroup : ∀ word : List Char,
      (word ++ ' ' :: (n ++ ' ' :: '=' :: ' ' :: '"' :: (s ++ ['"']))) ++ [';']
        = (word ++ ' ' :: (n ++ [' ', '=', ' '])) ++ '"' :: (s ++ ['"', ';']) := by simp
  have split : optionLine n s ++ [';']
      = ("option".toList ++ ' ' :: (n ++ [' ', '=', ' '])) ++ '"' :: (s ++ ['"', ';']) :=
    regroup _
  rw [split]
  exact cutFrom_append_of_next quoted before

/-- The normal form before its words are put side by side. -/
def spaced (cs : List Char) : List Char := replaceAll returnsBetween (spaceEquals cs)

/-- A part at the front of a text is its first word. -/
theorem words_spaced_append {w : List Char} (hw : IsPart w) (cs : List Char) :
    words (spaced (w ++ ' ' :: cs)) = w :: words (spaced cs) := by
  have closing : ')' ∉ w := by
    have free : ')' ∉ unwords [w] := closing_not_mem_unwords (by simpa using hw)
    simpa [unwords] using free
  have copied : returnsBetween.Copies (spaceEquals w ++ [' ']) := by
    refine copies_returnsBetween fun mem => ?_
    rcases List.mem_append.1 mem with mem | mem
    · exact closing (mem_of_mem_spaceEquals (by decide) mem)
    · exact absurd mem (by decide)
  have split : spaceEquals (w ++ ' ' :: cs) = (spaceEquals w ++ [' ']) ++ spaceEquals cs := by
    rw [spaceEquals_append, List.append_assoc]
    rfl
  rw [spaced, split, copied, List.append_assoc]
  change words (spaceEquals w ++ ' ' :: spaced cs) = _
  rw [words_append_blank isBlank_space, words_spaceEquals_of_isPart hw]
  rfl

theorem spaced_quoted (s : List Char) :
    spaced ('"' :: (s ++ ['"'])) = '"' :: (spaced s ++ ['"']) := by
  have foreign : ∀ p, IsReturns p → '"' ∉ p := by
    rintro _ ⟨before, after, hb, ha, rfl⟩
    have before : '"' ∉ before := not_mem_of_blank hb (by decide)
    have after : '"' ∉ after := not_mem_of_blank ha (by decide)
    have word : '"' ∉ "returns".toList := by decide
    simp only [List.mem_cons, List.mem_append, before, after, word]
    decide
  have split : spaceEquals ('"' :: (s ++ ['"'])) = '"' :: (spaceEquals s ++ ['"']) := by
    change '"' :: spaceEquals (s ++ ['"']) = _
    rw [spaceEquals_append]
    rfl
  rw [spaced, split, replaceAll_cons_of_none (returnsBetween_of_ne (by decide) _),
    returnsBetween_finds.replaceAll_append_cons foreign]
  rfl

/-- The words of the line: keyword, name, equals sign and the words of the literal in its quotes. -/
def optionWords (n s : List Char) : List (List Char) :=
  "option".toList :: n :: ['='] :: words ('"' :: (spaced s ++ ['"']))

/-- **The statement of the line.** -/
theorem normalize_optionLine (hn : IsName n) (s : List Char) :
    normalize (optionLine n s) = unwords (optionWords n s) := by
  have option : IsPart "option".toList := .inl ⟨by decide, by decide⟩
  have literal : words (spaced ('=' :: ' ' :: '"' :: (s ++ ['"'])))
      = ['='] :: words ('"' :: (spaced s ++ ['"'])) := by
    rw [← spaced_quoted]
    exact words_spaced_append (.inr rfl) _
  have named := (words_spaced_append (.inl hn.isBare) _).trans (congrArg (n :: ·) literal)
  have words := (words_spaced_append option _).trans (congrArg ("option".toList :: ·) named)
  exact congrArg unwords words

theorem isWord_of_mem_optionWords (hn : IsName n) :
    ∀ w ∈ optionWords n s, IsWord w := by
  have option : IsWord "option".toList := ⟨by decide, by decide⟩
  have equals : IsWord ['='] := ⟨by decide, by decide⟩
  simp only [optionWords, List.forall_mem_cons]
  exact ⟨option, hn.isBare.isWord, equals, fun _ => isWord_of_mem_words⟩

theorem unquoted_spaced (hs : ∀ c ∈ s, isQuote c = false) :
    ∀ c ∈ spaced s, isQuote c = false := by
  have word : ∀ c ∈ ") returns (".toList, isQuote c = false := by decide
  intro c hc
  rcases (returnsBetween_finds.replaced _).mem hc with hc | hc
  · by_cases space : c = ' '
    · exact space ▸ by decide
    · exact hs c (mem_of_mem_spaceEquals space hc)
  · exact word c hc

/-! ## The line in front of a text -/

theorem unpaired_optionLine (hn : IsName n) (hs : IsLiteralText s) :
    Unpaired '/' '*' (optionLine n s ++ [';', '\n']) := by
  have slash : '/' ∉ "option".toList ++ ' ' :: (n ++ [' ', '=', ' ', '"']) := by
    have word : '/' ∉ "option".toList := by decide
    have name : '/' ∉ n := hn.not_mem (by decide +kernel)
    refine fun mem => (List.mem_append.1 mem).elim word fun mem => ?_
    simp [name] at mem
  have literal : Unpaired '/' '*' (s ++ ['"', ';', '\n']) :=
    hs.unblocked.append (unpaired_of_not_mem (by decide)) (by simp)
  have regroup : ∀ word : List Char,
      (word ++ ' ' :: (n ++ ' ' :: '=' :: ' ' :: '"' :: (s ++ ['"']))) ++ [';', '\n']
        = (word ++ ' ' :: (n ++ [' ', '=', ' ', '"'])) ++ (s ++ ['"', ';', '\n']) := by simp
  have split : optionLine n s ++ [';', '\n'] = _ := regroup _
  rw [split]
  exact (unpaired_of_not_mem slash).append literal fun last =>
    absurd (List.mem_of_getLast? last) slash

/-- **Tidying leaves the line as it is**, and drops no comment that leads the text after it. -/
theorem tidy_optionLine (hn : IsName n) (hs : IsLiteralText s)
    (free : ∀ c ∈ s, Lexeme.ofDelimiter? c = none) (q : List Char) :
    tidy (optionLine n s ++ ';' :: '\n' :: q)
      = optionLine n s ++ ';' :: '\n' :: replaceAll emptyBody (eraseBlockComments q) := by
  have erased : eraseBlockComments (optionLine n s ++ ';' :: '\n' :: q)
      = optionLine n s ++ ';' :: '\n' :: eraseBlockComments q := by
    simpa using eraseBlockComments_append_of_unpaired (unpaired_optionLine hn hs) (by simp) q
  have kept : ∀ rest, dropLeadingComment (trimStart (optionLine n s ++ rest))
      = optionLine n s ++ rest := fun _ => rfl
  have brace : '}' ∉ optionLine n s := fun mem => nomatch undelimited_optionLine hn free '}' mem
  rw [tidy, erased, kept, replaceAll_emptyBody_append_cons (by decide) (by decide),
    replaceAll_emptyBody_of_not_mem brace, replaceAll_cons_of_none (emptyBody_of_ne (by decide) _)]

/-- **The line makes one statement**, and the text after it makes its own. -/
theorem statementChars_optionLine (hn : IsName n) (hs : IsLiteralText s)
    (free : ∀ c ∈ s, Lexeme.ofDelimiter? c = none) (q : List Char) :
    statementChars (optionLine n s ++ ';' :: '\n' :: q)
      = unwords (optionWords n s)
        :: group [] (Lexeme.ofText (replaceAll emptyBody (eraseBlockComments q))) := by
  have broken : ∀ c ∈ optionLine n s ++ [';'], isLineBreak c = false :=
    List.forall_mem_append.2 ⟨unbroken_optionLine hn hs, by decide⟩
  have split : ∀ rest, lines (optionLine n s ++ ';' :: '\n' :: rest)
      = (optionLine n s ++ [';']) :: lines rest := fun rest => by
    have parted : lines ((optionLine n s ++ [';']) ++ '\n' :: rest)
        = (optionLine n s ++ [';']) :: lines rest :=
      List.splitOnP_append_cons_of_forall_mem broken '\n' (by decide) rest
    rwa [List.append_assoc] at parted
  have line : Lexeme.ofLine (optionLine n s ++ [';'])
      = [.text (optionLine n s), .stop, .text []] := by
    rw [Lexeme.ofLine, cutComment_optionLine hn hs]
    have stop : Lexeme.ofDelimiter? ';' = some .stop := rfl
    exact (List.append_nil _).trans (ofCode_append_delimiter stop (undelimited_optionLine hn free))
  have blank : ∀ c ∈ [' '], isBlank c = true := by simp [isBlank_space]
  have normal : normalize (' ' :: optionLine n s) = unwords (optionWords n s) :=
    (normalize_blanks_append blank _).trans (normalize_optionLine hn s)
  have ne : unwords (optionWords n s) ≠ [] := by
    rw [optionWords, unwords_cons (by simp)]
    exact List.append_ne_nil_of_right_ne_nil _ (by simp)
  rw [statementChars, tidy_optionLine hn hs free, Lexeme.ofText, split, List.flatMap_cons, line]
  change emit (' ' :: optionLine n s) ++ group [' '] _ = _
  rw [emit_of_normalize normal ne, group_of_blanks (by simp [isBlank_space])]
  rfl

end Line

end ProtoSchema.Source
