import ProtoSchema.Proofs.Document.SourceReading

/-!
# Proofs/Methods/Spelling — the ways to write a service

A method may be written with any blanks around its parentheses and around `returns`, with `stream`
in front of either type and with a dot in front of a type's name.  A semicolon ends it or a body,
which holds options or nothing.  A *spelling* is one such way, with all blanks it uses; what it
spells are the names and types alone (`ServiceSpelling.service`).
-/

namespace ProtoSchema

open Text Source

/-! ## Blanks -/

/-- Blanks of any kind and number, none included. -/
structure Blanks where
  chars : List Char
  blank : ∀ c ∈ chars, isBlank c = true

/-- Blanks that keep words apart. -/
structure Gap extends Blanks where
  ne_nil : chars ≠ []

/-- No blanks. -/
def Blanks.none : Blanks := ⟨[], by simp⟩

/-- A single space. -/
def Gap.space : Gap := ⟨⟨[' '], List.forall_mem_singleton.2 rfl⟩, by simp⟩

/-- A line break. -/
def Gap.newline : Gap := ⟨⟨['\n'], List.forall_mem_singleton.2 rfl⟩, by simp⟩

/-! ## Spellings -/

/-- **A type in its parentheses**, with the blanks around them. -/
structure TypeSpelling where
  before : Blanks
  opened : Blanks
  /-- The blanks after the word `stream`, if it stands there. -/
  stream : Option Gap
  /-- A dot stands in front of the name. -/
  rooted : Bool
  type : TypeRef
  closing : Blanks
  after : Blanks
  canonical : type.isCanonical = true
  unreserved : rooted = true ∨ type.dotted ≠ "stream"

namespace TypeSpelling

/-- The type as it is written. -/
def token (t : TypeSpelling) : String := if t.rooted then "." ++ t.type.dotted else t.type.dotted

/-- The word `stream` with the blanks after it. -/
def streamed (t : TypeSpelling) : List Char :=
  match t.stream with
  | some gap => "stream".toList ++ gap.chars
  | none => []

/-- The text up to the closing parenthesis. -/
def front (t : TypeSpelling) : List Char :=
  t.before.chars ++ '(' :: (t.opened.chars ++ t.streamed ++ t.token.toList ++ t.closing.chars)

def chars (t : TypeSpelling) : List Char := t.front ++ ')' :: t.after.chars

end TypeSpelling

/-- The name or the value of an option: text without delimiters and comments. -/
structure OptionText where
  chars : List Char
  undelimited : ∀ c ∈ chars, Lexeme.ofDelimiter? c = none
  line : Unpaired '/' '/' chars
  block : Unpaired '/' '*' chars

/-- **An option** in the body of a method. -/
structure OptionSpelling where
  lead : Blanks
  gap : Gap
  name : OptionText
  before : Blanks
  after : Blanks
  value : OptionText
  ended : Blanks

namespace OptionSpelling

/-- The text between the keyword and the semicolon. -/
def content (o : OptionSpelling) : List Char :=
  o.name.chars ++ (o.before.chars ++ '=' :: o.after.chars) ++ (o.value.chars ++ o.ended.chars)

def chars (o : OptionSpelling) : List Char :=
  o.lead.chars ++ ("option".toList ++ o.gap.chars ++ o.content) ++ [';']

end OptionSpelling

/-- **How a method ends**: at a semicolon, or with a body of options and blanks. -/
inductive MethodEnding
  | stop
  | body (options : List OptionSpelling) (inside : Blanks)

/-- **A method** in the body of a service. -/
structure MethodSpelling where
  lead : Blanks
  gap : Gap
  name : String
  argument : TypeSpelling
  result : TypeSpelling
  ending : MethodEnding
  named : isIdentifier name = true
  unreserved : name ≠ "stream"

namespace MethodSpelling

/-- The text after the keyword, up to the last closing parenthesis. -/
def content (m : MethodSpelling) : List Char :=
  m.name.toList ++ m.argument.chars ++ "returns".toList ++ m.result.front

/-- The text up to the last closing parenthesis. -/
def front (m : MethodSpelling) : List Char :=
  m.lead.chars ++ ("rpc".toList ++ m.gap.chars ++ m.content)

def chars (m : MethodSpelling) : List Char :=
  match m.ending with
  | .stop => m.front ++ ')' :: m.result.after.chars ++ [';']
  | .body options inside =>
    m.front ++ ')' :: (m.result.after.chars
      ++ '{' :: (options.flatMap OptionSpelling.chars ++ (inside.chars ++ ['}'])))

/-- **The method that is spelled.** -/
def rpc (m : MethodSpelling) : Rpc := ⟨m.name, m.argument.type, m.result.type⟩

end MethodSpelling

/-- **A service**, and nothing else, as the text of a file. -/
structure ServiceSpelling where
  lead : Blanks
  gap : Gap
  name : String
  opened : Blanks
  methods : List MethodSpelling
  closing : Blanks
  after : Blanks
  named : isIdentifier name = true

namespace ServiceSpelling

/-- The text up to the opening brace. -/
def front (s : ServiceSpelling) : List Char :=
  s.lead.chars ++ ("service".toList ++ s.gap.chars ++ (s.name.toList ++ s.opened.chars))

def chars (s : ServiceSpelling) : List Char :=
  s.front ++ ['{'] ++ s.methods.flatMap MethodSpelling.chars ++ (s.closing.chars ++ ['}'])
    ++ s.after.chars

def text (s : ServiceSpelling) : String := String.ofList s.chars

/-- **The service that is spelled**, with its methods in order. -/
def service (s : ServiceSpelling) : Service := ⟨s.name, s.methods.map fun m => .rpc m.rpc⟩

end ServiceSpelling

/-! ## Keywords -/

theorem isLiteral_service : IsLiteral "service".toList := isLiteral_of_isIdentifier (by decide)

theorem isLiteral_stream : IsLiteral "stream".toList := isLiteral_of_isIdentifier (by decide)

theorem isLiteral_option : IsLiteral "option".toList := isLiteral_of_isIdentifier (by decide)

/-! ## The characters of a method -/

/-- A character of a name, a blank or a parenthesis. -/
def isHeadChar (c : Char) : Bool := isBlank c || isLiteralChar c || c = '(' || c = ')'

theorem Blanks.isHeadChar (b : Blanks) : ∀ c ∈ b.chars, isHeadChar c = true := fun c hc => by
  simp [ProtoSchema.isHeadChar, b.blank c hc]

theorem IsLiteral.isHeadChar {w : List Char} (h : IsLiteral w) :
    ∀ c ∈ w, isHeadChar c = true := fun c hc => by
  simp [ProtoSchema.isHeadChar, h.2 c hc]

namespace TypeSpelling

variable (t : TypeSpelling)

/-- A dot in front of a name leaves it a literal. -/
theorem isLiteral_token : IsLiteral t.token.toList := by
  have dotted := isLiteral_dotted t.canonical
  unfold token
  split_ifs
  · refine ⟨by simp, fun c hc => ?_⟩
    rw [String.toList_append] at hc
    rcases List.mem_append.1 hc with hc | hc
    · obtain rfl : c = '.' := by simpa using hc
      decide
    · exact dotted.2 c hc
  · exact dotted

theorem isHeadChar_streamed : ∀ c ∈ t.streamed, isHeadChar c = true := by
  unfold streamed
  split
  · next gap _ => exact List.forall_mem_append.2 ⟨isLiteral_stream.isHeadChar, gap.isHeadChar⟩
  · simp

theorem isHeadChar_front : ∀ c ∈ t.front, isHeadChar c = true := by
  simp only [front, List.forall_mem_append, List.forall_mem_cons]
  exact ⟨t.before.isHeadChar, by decide, ⟨⟨t.opened.isHeadChar, t.isHeadChar_streamed⟩,
    t.isLiteral_token.isHeadChar⟩, t.closing.isHeadChar⟩

theorem isHeadChar_chars : ∀ c ∈ t.chars, isHeadChar c = true := by
  simp only [chars, List.forall_mem_append, List.forall_mem_cons]
  exact ⟨t.isHeadChar_front, by decide, t.after.isHeadChar⟩

end TypeSpelling

theorem MethodSpelling.isHeadChar_content (m : MethodSpelling) :
    ∀ c ∈ m.content, isHeadChar c = true := by
  simp only [content, List.forall_mem_append]
  exact ⟨⟨⟨(isLiteral_of_isIdentifier m.named).isHeadChar, m.argument.isHeadChar_chars⟩,
    isLiteral_returns.isHeadChar⟩, m.result.isHeadChar_front⟩

theorem MethodSpelling.isHeadChar_front (m : MethodSpelling) :
    ∀ c ∈ m.front, isHeadChar c = true := by
  simp only [front, List.forall_mem_append]
  exact ⟨m.lead.isHeadChar, ⟨isLiteral_rpc.isHeadChar, m.gap.isHeadChar⟩,
    m.isHeadChar_content⟩

theorem ServiceSpelling.isHeadChar_front (s : ServiceSpelling) :
    ∀ c ∈ s.front, isHeadChar c = true := by
  simp only [front, List.forall_mem_append]
  exact ⟨s.lead.isHeadChar, ⟨isLiteral_service.isHeadChar, s.gap.isHeadChar⟩,
    (isLiteral_of_isIdentifier s.named).isHeadChar, s.opened.isHeadChar⟩

theorem not_mem_of_isHeadChar {cs : List Char} (h : ∀ c ∈ cs, isHeadChar c = true) {d : Char}
    (hd : isHeadChar d = false) : d ∉ cs := fun mem =>
  Bool.false_ne_true (hd.symm.trans (h d mem))

theorem undelimited_of_isHeadChar {cs : List Char} (h : ∀ c ∈ cs, isHeadChar c = true) :
    ∀ c ∈ cs, Lexeme.ofDelimiter? c = none := fun c hc =>
  Lexeme.ofDelimiter?_eq_none_iff.2 ⟨ne_of_mem_of_not_mem hc (not_mem_of_isHeadChar h (by decide)),
    ne_of_mem_of_not_mem hc (not_mem_of_isHeadChar h (by decide)),
    ne_of_mem_of_not_mem hc (not_mem_of_isHeadChar h (by decide))⟩

theorem OptionSpelling.undelimited_content (o : OptionSpelling) :
    ∀ c ∈ o.content, Lexeme.ofDelimiter? c = none := by
  have blanks : ∀ b : Blanks, ∀ c ∈ b.chars, Lexeme.ofDelimiter? c = none := fun b =>
    undelimited_of_isHeadChar b.isHeadChar
  simp only [content, List.forall_mem_append, List.forall_mem_cons]
  exact ⟨⟨o.name.undelimited, blanks o.before, rfl, blanks o.after⟩, o.value.undelimited,
    blanks o.ended⟩

/-! ## No comments -/

/-- **No comment starts in the text**, nor at its end. -/
structure Sealed (cs : List Char) : Prop where
  line : Unpaired '/' '/' cs
  block : Unpaired '/' '*' cs
  last : cs.getLast? ≠ some '/'

namespace Sealed

variable {a b cs : List Char}

theorem of_not_mem (h : '/' ∉ cs) : Sealed cs :=
  ⟨unpaired_of_not_mem h, unpaired_of_not_mem h, fun last => h (List.mem_of_getLast? last)⟩

theorem append (ha : Sealed a) (hb : Sealed b) : Sealed (a ++ b) where
  line := ha.line.append hb.line fun last => absurd last ha.last
  block := ha.block.append hb.block fun last => absurd last ha.last
  last := by
    cases b with
    | nil => rw [List.append_nil]; exact ha.last
    | cons c b => rw [List.getLast?_append_of_ne_nil a (List.cons_ne_nil c b)]; exact hb.last

theorem flatMap {α : Type} {f : α → List Char} : ∀ {xs : List α}, (∀ x ∈ xs, Sealed (f x)) →
    Sealed (xs.flatMap f)
  | [], _ => of_not_mem (by simp)
  | x :: xs, h => by
      obtain ⟨first, others⟩ := List.forall_mem_cons.1 h
      exact first.append (flatMap others)

end Sealed

theorem OptionSpelling.isSealed (o : OptionSpelling) : Sealed o.chars := by
  have free : ∀ b : Blanks, ∀ {d : Char}, isHeadChar d = false → d ∉ b.chars := fun b _ hd =>
    not_mem_of_isHeadChar b.isHeadChar hd
  have sign : '/' ∉ o.before.chars ++ '=' :: o.after.chars
      ∧ '*' ∉ o.before.chars ++ '=' :: o.after.chars := by
    simp [free o.before (d := '/') (by decide), free o.after (d := '/') (by decide),
      free o.before (d := '*') (by decide), free o.after (d := '*') (by decide)]
  have unpaired : ∀ {d : Char}, d ∉ o.before.chars ++ '=' :: o.after.chars →
      d ∉ o.ended.chars ++ [';'] → Unpaired '/' d o.name.chars → Unpaired '/' d o.value.chars →
        Unpaired '/' d (o.content ++ [';']) := fun {d} other ended name value => by
    have tail : '/' ∉ o.ended.chars ++ [';'] := by simp [free o.ended (d := '/') (by decide)]
    have last := (unpaired_append_stretch (by simp) tail ended o.value.chars []).2
      ⟨value, List.isChain_nil⟩
    have whole := (unpaired_append_stretch (by simp) sign.1 other o.name.chars _).2 ⟨name, last⟩
    simpa [content] using whole
  have front : Sealed (o.lead.chars ++ ("option".toList ++ o.gap.chars)) := by
    refine .of_not_mem ?_
    simp [free o.lead (d := '/') (by decide), free o.gap.toBlanks (d := '/') (by decide)]
  have rest : Sealed (o.content ++ [';']) :=
    ⟨unpaired sign.1 (by simp [free o.ended (d := '/') (by decide)]) o.name.line o.value.line,
      unpaired sign.2 (by simp [free o.ended (d := '*') (by decide)]) o.name.block o.value.block,
      by simp⟩
  simpa [chars] using front.append rest

theorem Blanks.isSealed (b : Blanks) : Sealed b.chars :=
  .of_not_mem (not_mem_of_isHeadChar b.isHeadChar (by decide))

theorem isSealed_sign {d : Char} (h : d ≠ '/') : Sealed [d] := .of_not_mem (by simpa using h.symm)

theorem MethodSpelling.isSealed (m : MethodSpelling) : Sealed m.chars := by
  have front : Sealed m.front := .of_not_mem (not_mem_of_isHeadChar m.isHeadChar_front (by decide))
  have closed : Sealed (m.front ++ ([')'] ++ m.result.after.chars)) :=
    front.append ((isSealed_sign (by decide)).append m.result.after.isSealed)
  unfold chars
  split
  · have whole := closed.append (isSealed_sign (d := ';') (by decide))
    simpa using whole
  · next options inside _ =>
    have body : Sealed (options.flatMap OptionSpelling.chars) :=
      .flatMap fun o _ => o.isSealed
    have whole := ((closed.append (isSealed_sign (d := '{') (by decide))).append body).append
      (inside.isSealed.append (isSealed_sign (d := '}') (by decide)))
    simpa using whole

theorem ServiceSpelling.isSealed (s : ServiceSpelling) : Sealed s.chars := by
  have front : Sealed s.front := .of_not_mem (not_mem_of_isHeadChar s.isHeadChar_front (by decide))
  have methods : Sealed (s.methods.flatMap MethodSpelling.chars) := .flatMap fun m _ => m.isSealed
  exact (((front.append (isSealed_sign (by decide))).append methods).append
    (s.closing.isSealed.append (isSealed_sign (by decide)))).append s.after.isSealed

end ProtoSchema
