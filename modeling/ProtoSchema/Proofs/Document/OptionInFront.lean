import ProtoSchema.Proofs.Document.After
import ProtoSchema.Proofs.Document.CommentWording
import ProtoSchema.Proofs.Document.Settings
import ProtoSchema.Proofs.Document.SourceReading
import ProtoSchema.Proofs.Source.OptionLine

/-!
# Proofs/Document/OptionInFront — how opaque a string literal is

An option on a line in front of a schema is read as one entry in front of the others, and the rest
of the schema is read as it is by itself.  The value of the entry is the last word of the literal
(`Document.ofText_behind_option`), so it is the literal just if that is opaque
(`Document.ofText_option_in_front`).
-/

namespace ProtoSchema

open Text Source Text.Letterwise

namespace Source

variable {n s : List Char}

/-! ## What the option says -/

/-- The tokens of the line: the literal loses its quotes. -/
theorem tokens_optionLine (hn : IsName n) (hs : ∀ c ∈ s, isQuote c = false) :
    tokens (unwords (optionWords n s))
      = "option" :: String.ofList n :: "=" :: (words (spaced s)).map String.ofList := by
  have name : ∀ c ∈ n, isQuote c = false := fun c hc => by
    have other : ∀ d, isWordChar d = false → c ≠ d := fun d hd =>
      ne_of_mem_of_not_mem hc (hn.not_mem hd)
    simp [isQuote, other '"' (by decide +kernel), other '\'' (by decide +kernel)]
  have front : tokensOfWords ["option".toList, n, ['=']] = ["option", String.ofList n, "="] := by
    have keyword : "option" ≠ "" ∧ ∀ c ∈ "option".toList, isQuote c = false := by decide
    have equals : "=" ≠ "" ∧ ∀ c ∈ "=".toList, isQuote c = false := by decide
    have named : String.ofList n ≠ "" ∧ ∀ c ∈ (String.ofList n).toList, isQuote c = false := by
      simpa [hn.ne_nil] using name
    have plain : ∀ v ∈ ["option", String.ofList n, "="],
        v ≠ "" ∧ ∀ c ∈ v.toList, isQuote c = false := fun v hv => by
      rcases List.mem_cons.1 hv with rfl | hv
      · exact keyword
      · rcases List.mem_cons.1 hv with rfl | hv
        · exact named
        · exact List.mem_singleton.1 hv ▸ equals
    have tokens := tokensOfWords_map_toList plain
    have chars : (String.ofList n).toList = n := String.toList_ofList
    rwa [List.map_cons, List.map_cons, chars] at tokens
  have literal : unquote ('"' :: (spaced s ++ ['"'])) = spaced s := by
    have kept := unquote_of_isLiteral (unquoted_spaced hs)
    simpa [unquote, isQuote] using kept
  have split : optionWords n s
      = ["option".toList, n, ['=']] ++ words ('"' :: (spaced s ++ ['"'])) := rfl
  rw [tokens, words_unwords (isWord_of_mem_optionWords hn), split, tokensOfWords_append, front]
  change _ ++ tokens _ = _
  rw [tokens_eq_map_words, literal]
  rfl

/-- **The value that is read of a literal**: its last word, or the equals sign if it has none. -/
def literalValue (s : List Char) : String := ((words (spaced s)).map String.ofList).getLastD "="

/-- **A literal without delimiters is its own value just if it is opaque.** -/
theorem literalValue_eq_iff (h : ∀ c ∈ s, Lexeme.ofDelimiter? c = none) :
    literalValue s = String.ofList s ↔ IsOpaque s := by
  rw [← getLast?_words_eq_some_iff h, ← spaced, literalValue]
  cases last : (words (spaced s)).getLast? with
  | none =>
    obtain none := List.getLast?_eq_none_iff.1 last
    refine iff_of_false (fun same => ?_) (by simp)
    rw [none] at same
    obtain rfl : s = ['='] := by
      have chars := congrArg String.toList same
      rw [String.toList_ofList] at chars
      exact chars.symm
    exact absurd none (by decide)
  | some w =>
    have value : ((words (spaced s)).map String.ofList).getLastD "=" = String.ofList w := by
      rw [List.getLastD_eq_getLast?, List.getLast?_map, last]
      rfl
    rw [value, Option.some.injEq, String.ofList_inj]

/-- **The line is read as an option** with the name and the value of the literal. -/
theorem ofText_optionLine (hn : IsName n) (hs : ∀ c ∈ s, isQuote c = false)
    (free : ∀ c ∈ s, Lexeme.ofDelimiter? c = none) :
    (Statement.ofText (String.ofList (unwords (optionWords n s)))).kind = .setting
      ∧ Setting.ofTokens? (Statement.ofText (String.ofList (unwords (optionWords n s)))).tokens
        = some ⟨String.ofList n, literalValue s⟩ := by
  have chars := String.toList_ofList (l := unwords (optionWords n s))
  have undelimited : ∀ c ∈ unwords (optionWords n s), Lexeme.ofDelimiter? c = none := by
    rw [← normalize_optionLine hn]
    exact undelimited_normalize (undelimited_optionLine hn free)
  have code : Statement.isComment (unwords (optionWords n s)) = false := by
    rw [optionWords, unwords_cons (by simp)]
    rfl
  rw [Statement.ofText_of_undelimited (by rwa [chars]) (by rwa [chars]), chars,
    tokens_optionLine hn hs]
  refine ⟨rfl, ?_⟩
  rw [Setting.ofTokens?, literalValue]
  cases (words (spaced s)).map String.ofList <;> rfl

/-! ## The text behind it -/

/-- **A comment that leads the text is on one line**: no break but the line feed ends it. -/
def LeadsOnOneLine (q : List Char) : Prop :=
  ∀ r, trimStart (eraseBlockComments q) = '/' :: '/' :: r →
    ∀ c ∈ r.takeWhile (· ≠ '\n'), isLineBreak c = false

/-- The comment that leads a text makes a statement of its own. -/
theorem group_comment {c : List Char} (hc : ∀ d ∈ c, isLineBreak d = false) :
    (∀ rest, group [] (Lexeme.ofText ('/' :: '/' :: (c ++ '\n' :: rest)))
        = emit ('/' :: '/' :: ' ' :: c) ++ group [] (Lexeme.ofText rest))
      ∧ group [] (Lexeme.ofText ('/' :: '/' :: c)) = emit ('/' :: '/' :: ' ' :: c) := by
  have line : ∀ d ∈ '/' :: '/' :: c, isLineBreak d = false := by
    rw [List.forall_mem_cons, List.forall_mem_cons]
    exact ⟨by decide, by decide, hc⟩
  have lexemes : Lexeme.ofLine ('/' :: '/' :: c) = [.text [], .comment c] := rfl
  constructor
  · intro rest
    have split : lines ('/' :: '/' :: c ++ '\n' :: rest) = ('/' :: '/' :: c) :: lines rest :=
      List.splitOnP_append_cons_of_forall_mem line '\n' (by decide) rest
    change group [] (Lexeme.ofText ('/' :: '/' :: c ++ '\n' :: rest)) = _
    rw [Lexeme.ofText, split, List.flatMap_cons, lexemes]
    change emit _ ++ group [' '] _ = _
    rw [group_of_blanks (by simp [isBlank_space])]
    rfl
  · have whole : lines ('/' :: '/' :: c) = ['/' :: '/' :: c] := List.splitOnP_eq_singleton line
    rw [Lexeme.ofText, whole, List.flatMap_singleton, lexemes]
    have none : emit [' '] = [] := emit_of_blanks (by simp [isBlank_space])
    change emit _ ++ emit [' '] = _
    rw [none, List.append_nil]

/-- A closing brace at the front of a text is its first statement. -/
theorem exists_group_closing (cs : List Char) :
    ∃ rest, group [] (Lexeme.ofText ('}' :: cs)) = ['}'] :: rest := by
  obtain ⟨l, ls, split⟩ := exists_lines cs
  have split' : lines ('}' :: cs) = ('}' :: l) :: ls :=
    lines_append_of_unbroken (a := ['}']) (by decide) split
  have cut : cutComment ('}' :: l) = (cutComment l).cons '}' :=
    cutFrom_cons fun _ e => absurd e (by decide)
  have code : Lexeme.ofCode ('}' :: (cutComment l).code)
      = .text [] :: .closing :: Lexeme.ofCode (cutComment l).code :=
    Lexeme.ofCode_cons_of_some rfl _
  have none : emit [' '] = [] := emit_of_blanks (by simp [isBlank_space])
  have brace : emit ['}'] = [['}']] := by decide
  rw [Lexeme.ofText, split', List.flatMap_cons, Lexeme.ofLine, cut]
  change ∃ rest, group [] ((Lexeme.ofCode ('}' :: (cutComment l).code) ++ _) ++ _) = _
  rw [code]
  change ∃ rest, emit [' '] ++ emit ['}'] ++ group [] _ = _
  rw [none, brace]
  exact ⟨_, rfl⟩

section Behind

variable {c after q : List Char}

theorem replaceAll_emptyBody_blanks {u : List Char} (hu : ∀ c ∈ u, isBlank c = true)
    (cs : List Char) : replaceAll emptyBody (u ++ cs) = u ++ replaceAll emptyBody cs :=
  copies_emptyBody (not_mem_of_blank hu (by decide)) cs

/-- Blanks in front of a text do not count, empty bodies or not. -/
theorem group_emptyBody_blanks {u : List Char} (hu : ∀ c ∈ u, isBlank c = true) (cs : List Char) :
    group [] (Lexeme.ofText (replaceAll emptyBody (u ++ cs)))
      = group [] (Lexeme.ofText (replaceAll emptyBody cs)) := by
  rw [replaceAll_emptyBody_blanks hu, group_ofText_blanks_append hu]

/-- Neither slash of a comment starts an empty body. -/
theorem replaceAll_emptyBody_slashes (cs : List Char) :
    replaceAll emptyBody ('/' :: '/' :: cs) = '/' :: '/' :: replaceAll emptyBody cs := by
  rw [replaceAll_cons_of_none (emptyBody_of_ne (by decide) _),
    replaceAll_cons_of_none (emptyBody_of_ne (by decide) _)]

theorem isComment_of_mem_emit {k x : List Char} (h : x ∈ emit ('/' :: '/' :: ' ' :: k)) :
    Statement.isComment x = true := by
  rw [eq_normalize_of_mem_emit h, normalize_comment]
  rfl

/-- **A line that is a comment makes a statement and leaves what follows it**, or what follows it
starts with a closing brace. -/
theorem group_comment_line (hc : ∀ d ∈ c, isLineBreak d = false) :
    (∃ rest, group [] (Lexeme.ofText (replaceAll emptyBody ('\n' :: after))) = ['}'] :: rest)
      ∨ ∃ notes, (∀ x ∈ notes, Statement.isComment x = true)
        ∧ group [] (Lexeme.ofText (replaceAll emptyBody ('/' :: '/' :: (c ++ '\n' :: after))))
          = notes ++ group [] (Lexeme.ofText (replaceAll emptyBody ('\n' :: after))) := by
  have alone : group [] (Lexeme.ofText (replaceAll emptyBody ('\n' :: after)))
      = group [] (Lexeme.ofText (replaceAll emptyBody after)) :=
    group_emptyBody_blanks (u := ['\n']) (by decide) after
  rw [alone]
  by_cases crossing : OpensBody c ∧ ClosesBody after
  · left
    obtain ⟨-, inner, rest, blanks, rfl⟩ := crossing
    rw [group_emptyBody_blanks blanks, replaceAll_cons_of_none (emptyBody_of_ne (by decide) _)]
    exact exists_group_closing _
  · right
    refine ⟨emit ('/' :: '/' :: ' ' :: replaceAll emptyBody c), fun x => isComment_of_mem_emit, ?_⟩
    rw [replaceAll_emptyBody_slashes, replaceAll_emptyBody_line crossing]
    exact (group_comment (unbroken_replaceAll_emptyBody hc)).1 _

/-- The same of a comment that leads a text, which may be all there is. -/
theorem group_comment_leading {r : List Char}
    (plain : ∀ d ∈ r.takeWhile (· ≠ '\n'), isLineBreak d = false) :
    (∃ rest, group [] (Lexeme.ofText (replaceAll emptyBody (r.dropWhile (· ≠ '\n'))))
        = ['}'] :: rest)
      ∨ ∃ notes, (∀ x ∈ notes, Statement.isComment x = true)
        ∧ group [] (Lexeme.ofText (replaceAll emptyBody ('/' :: '/' :: r)))
          = notes ++ group [] (Lexeme.ofText (replaceAll emptyBody (r.dropWhile (· ≠ '\n')))) := by
  by_cases ends : '\n' ∈ r
  · obtain ⟨c, after, rfl, free⟩ := List.eq_append_cons_of_mem ends
    have other : ∀ d ∈ c, decide (d ≠ '\n') = true := fun d hd => by
      simpa using ne_of_mem_of_not_mem hd free
    rw [takeWhile_append_cons other (by simp)] at plain
    rw [dropWhile_ne_break free]
    exact group_comment_line plain
  · have other : ∀ d ∈ r, decide (d ≠ '\n') = true := fun d hd => by
      simpa using ne_of_mem_of_not_mem hd ends
    rw [List.takeWhile_eq_self_iff.2 other] at plain
    refine .inr ⟨emit ('/' :: '/' :: ' ' :: replaceAll emptyBody r),
      fun x => isComment_of_mem_emit, ?_⟩
    rw [replaceAll_emptyBody_slashes, (group_comment (unbroken_replaceAll_emptyBody plain)).2,
      List.dropWhile_eq_nil_iff.2 other]
    exact (List.append_nil _).symm

/-- **A text behind another makes the statements that it makes by itself**, and a comment in front
of them if one leads it; else it starts with a closing brace. -/
theorem group_behind (h : LeadsOnOneLine q) :
    (∃ rest, statementChars q = ['}'] :: rest)
      ∨ ∃ notes, (∀ x ∈ notes, Statement.isComment x = true)
        ∧ group [] (Lexeme.ofText (replaceAll emptyBody (eraseBlockComments q)))
          = notes ++ statementChars q := by
  have outer := List.takeWhile_append_dropWhile (p := isBlank) (l := eraseBlockComments q)
  have behind := group_emptyBody_blanks (u := (eraseBlockComments q).takeWhile isBlank)
    (fun c hc => List.mem_takeWhile_imp hc) (trimStart (eraseBlockComments q))
  rw [trimStart, outer] at behind
  rw [behind, ← trimStart, statementChars, tidy]
  by_cases leads : ['/', '/'] <+: trimStart (eraseBlockComments q)
  · obtain ⟨r, start⟩ := leads
    have start : trimStart (eraseBlockComments q) = '/' :: '/' :: r := start.symm
    have dropped : dropLeadingComment ('/' :: '/' :: r) = r.dropWhile (· ≠ '\n') := rfl
    rw [start, dropped]
    exact group_comment_leading (h r start)
  · refine .inr ⟨[], by simp, ?_⟩
    rw [dropLeadingComment_of_unmarked leads]
    rfl

end Behind

end Source

/-! ## Documents -/

/-- A comment that follows no import leaves the draft as it is. -/
theorem Progress.next_of_isComment {text : String} (h : Statement.isComment text.toList = true)
    {p : Progress} (apart : p.previous ≠ some .importing) :
    p.next text = some ⟨p.draft, some .comment⟩ := by
  have kind := Statement.ofText_of_isComment h
  rw [next, Draft.accept_comment kind apart, Option.map_some, kind]

theorem Progress.run_of_isComment {texts : List String} : ∀ {p : Progress},
    (∀ text ∈ texts, Statement.isComment text.toList = true) → p.previous ≠ some .importing →
      ∃ q, p.run texts = some q ∧ q.draft = p.draft ∧ q.previous ≠ some .importing := by
  induction texts with
  | nil => exact fun _ apart => ⟨_, rfl, rfl, apart⟩
  | cons text texts ih =>
    intro p h apart
    obtain ⟨first, others⟩ := List.forall_mem_cons.1 h
    rw [run_cons_of_next (next_of_isComment first apart)]
    exact ih (p := ⟨p.draft, some .comment⟩) others nofun

namespace Document

variable {n s q : String} {d : Document}

/-- Reading does not start with a closing brace. -/
theorem ofStatements_closing (texts : List String) :
    ofStatements ("\x7d" :: texts) = .error ⟨.strayClose, some ⟨1, some "\x7d"⟩⟩ :=
  ofStatements_of_refused (rfl : Progress.start.run [] = some _) (by decide)

/-- The option is the first entry of the draft. -/
theorem run_optionLine (hn : IsName n.toList) (hs : ∀ c ∈ s.toList, isQuote c = false)
    (free : ∀ c ∈ s.toList, Lexeme.ofDelimiter? c = none) :
    Progress.start.next (String.ofList (unwords (optionWords n.toList s.toList)))
      = some ⟨Draft.empty.after [.setting ⟨n, literalValue s.toList⟩] [], some .setting⟩ := by
  obtain ⟨kind, setting⟩ := ofText_optionLine hn hs free
  rw [String.ofList_toList] at setting
  rw [Progress.next, Draft.accept, kind]
  change (some (Draft.empty.acceptSetting _)).map _ = _
  rw [Draft.acceptSetting, setting]
  rfl

/-- **A schema behind an option is read as it is by itself**, with the option in front. -/
theorem ofText_behind_option (hn : IsName n.toList) (hs : IsLiteralText s.toList)
    (free : ∀ c ∈ s.toList, Lexeme.ofDelimiter? c = none) (hq : LeadsOnOneLine q.toList)
    (h : ofText q = .ok d) :
    ofText ("option " ++ n ++ " = \"" ++ s ++ "\";\n" ++ q)
      = .ok { d with entries := .setting ⟨n, literalValue s.toList⟩ :: d.entries } := by
  have chars : ("option " ++ n ++ " = \"" ++ s ++ "\";\n" ++ q).toList
      = optionLine n.toList s.toList ++ ';' :: '\n' :: q.toList := by
    rw [optionLine_append]
    simp only [String.toList_append, List.append_assoc]
  rcases group_behind hq with ⟨rest, closing⟩ | ⟨notes, comments, behind⟩
  · rw [ofText, statements, closing] at h
    exact absurd (h.symm.trans (ofStatements_closing _)) (by simp)
  · have statements : statements ("option " ++ n ++ " = \"" ++ s ++ "\";\n" ++ q)
        = (String.ofList (unwords (optionWords n.toList s.toList)) :: notes.map String.ofList)
          ++ statements q := by
      rw [statements, chars, statementChars_optionLine hn hs free, behind, List.map_cons,
        List.map_append]
      rfl
    have said : ∀ text ∈ notes.map String.ofList, Statement.isComment text.toList = true := by
      intro text there
      obtain ⟨x, mem, rfl⟩ := List.mem_map.1 there
      rw [String.toList_ofList]
      exact comments x mem
    obtain ⟨p, run, draft, apart⟩ := Progress.run_of_isComment said
      (p := ⟨Draft.empty.after [.setting ⟨n, literalValue s.toList⟩] [], some .setting⟩) (by simp)
    rw [ofText, statements]
    exact ofStatements_after
      ((Progress.run_cons_of_next (run_optionLine hn hs.unquoted free)).trans run) draft apart h

/-- **A string literal is opaque to the reader just if it is an opaque one.** -/
theorem ofText_option_in_front (hn : IsName n.toList) (hs : IsLiteralText s.toList)
    (hq : LeadsOnOneLine q.toList) (h : ofText q = .ok d) :
    ofText ("option " ++ n ++ " = \"" ++ s ++ "\";\n" ++ q)
        = .ok { d with entries := .setting ⟨n, s⟩ :: d.entries }
      ↔ IsOpaque s.toList := by
  constructor
  · intro read
    have free := undelimited_value read List.mem_cons_self
    rw [ofText_behind_option hn hs free hq h] at read
    have entries : Entry.setting ⟨n, literalValue s.toList⟩ :: d.entries
        = .setting ⟨n, s⟩ :: d.entries := congrArg entries (Except.ok.inj read)
    have setting := Entry.setting.inj (List.cons.inj entries).1
    have value : literalValue s.toList = s := congrArg Setting.value setting
    rw [← literalValue_eq_iff free, value, String.ofList_toList]
  · intro opaq
    rw [ofText_behind_option hn hs opaq.undelimited hq h,
      (literalValue_eq_iff opaq.undelimited).2 opaq, String.ofList_toList]

/-- A link is read back, slashes and all. -/
theorem ofText_link_in_front :
    IsName "url".toList ∧ IsLiteralText "https://a.org".toList
    ∧ LeadsOnOneLine "message A \x7b\x7d".toList
    ∧ ofText "message A \x7b\x7d" = .ok ⟨"", "", [], [.message "A" []], []⟩
    ∧ ofText ("option " ++ "url" ++ " = \"" ++ "https://a.org" ++ "\";\n" ++ "message A \x7b\x7d")
      = .ok ⟨"", "", [], [.setting ⟨"url", "https://a.org"⟩, .message "A" []], []⟩ := by
  have name : IsName "url".toList := ⟨by decide, by decide⟩
  have literal : IsLiteralText "https://a.org".toList :=
    ⟨by decide, by decide, by decide, by decide⟩
  have leads : LeadsOnOneLine "message A \x7b\x7d".toList := fun r same =>
    absurd (List.cons.inj same).1 (by decide)
  have read : ofText "message A \x7b\x7d" = .ok ⟨"", "", [], [.message "A" []], []⟩ := by rfl
  have returns : ¬ ")returns(".toList <:+: "https://a.org".toList := fun part =>
    absurd (part.subset (by decide : ')' ∈ ")returns(".toList)) (by decide)
  have opaq : IsOpaque "https://a.org".toList :=
    ⟨by decide, by decide, by decide, by decide, returns⟩
  exact ⟨name, literal, leads, read, (ofText_option_in_front name literal leads read).2 opaq⟩

/-- Of a literal with a blank in it only the last word is read, though it holds neither quotes nor
backslashes nor line breaks. -/
theorem ofText_words_in_front :
    IsName "n".toList ∧ (∀ c ∈ "a b".toList, isQuote c = false) ∧ '\\' ∉ "a b".toList
    ∧ (∀ c ∈ "a b".toList, isLineBreak c = false)
    ∧ ofText "" = .ok ⟨"", "", [], [], []⟩
    ∧ ofText ("option " ++ "n" ++ " = \"" ++ "a b" ++ "\";\n" ++ "")
      = .ok ⟨"", "", [], [.setting ⟨"n", "b"⟩], []⟩
    ∧ (⟨"n", "b"⟩ : Setting) ≠ ⟨"n", "a b"⟩ :=
  ⟨⟨by decide, by decide⟩, by decide, by decide, by decide, by rfl, by rfl, by decide⟩

end Document

end ProtoSchema
