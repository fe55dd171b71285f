import ProtoSchema.Proofs.Document.Source
import ProtoSchema.Proofs.Source.Line
import ProtoSchema.Proofs.Symbols.DottedTokens

/-!
# Proofs/Document/SourceText — the statements of a canonical source

Every line of a canonical source can be read on its own, so the statements of the source are those
of its lines (`statements_source`).  Names, literals, dotted references and decimal texts are bare
words; only a method has parentheses, and its line is treated apart.
-/

namespace ProtoSchema

open Text Source

/-! ## Names are bare words -/

theorem toNat_of_isUpper {c : Char} (h : c.isUpper = true) : 65 ≤ c.toNat ∧ c.toNat ≤ 90 :=
  (of_decide_eq_true h : 'A'.val ≤ c.val ∧ c.val ≤ 'Z'.val)

theorem toNat_of_isLower {c : Char} (h : c.isLower = true) : 97 ≤ c.toNat ∧ c.toNat ≤ 122 := by
  obtain ⟨low, high⟩ := Bool.and_eq_true_iff.1 h
  exact ⟨of_decide_eq_true low, of_decide_eq_true high⟩

theorem toNat_of_isLiteralChar {c : Char} (h : isLiteralChar c = true) :
    (48 ≤ c.toNat ∧ c.toNat ≤ 57) ∨ (65 ≤ c.toNat ∧ c.toNat ≤ 90)
      ∨ (97 ≤ c.toNat ∧ c.toNat ≤ 122) ∨ c.toNat = 95 ∨ c.toNat = 46 := by
  simp only [isLiteralChar, isNameChar, Char.isAlphanum, Bool.or_eq_true, decide_eq_true_eq] at h
  rcases h with ((letter | digit) | rfl) | rfl
  · rcases Bool.or_eq_true_iff.1 letter with upper | lower
    · exact .inr (.inl (toNat_of_isUpper upper))
    · exact .inr (.inr (.inl (toNat_of_isLower lower)))
  · exact .inl (toNat_of_isDigit digit)
  · exact .inr (.inr (.inr (.inl rfl)))
  · exact .inr (.inr (.inr (.inr rfl)))

theorem isBareChar_of_isLiteralChar {c : Char} (h : isLiteralChar c = true) :
    isBareChar c = true := by
  have ne : ∀ d, isLiteralChar d = false → c ≠ d := fun d hd e => by simp [e ▸ h] at hd
  have blank : isBlank c = false := by
    have := toNat_of_isLiteralChar h
    simp only [isBlank, Bool.or_eq_false_iff, Bool.and_eq_false_iff, decide_eq_false_iff_not]
    omega
  simp [isBareChar, blank, ne '/' (by decide), ne '{' (by decide), ne '}' (by decide),
    ne ';' (by decide), ne '=' (by decide), ne '(' (by decide), ne ')' (by decide)]

/-- A character of a literal is no quote. -/
theorem isQuote_of_isLiteralChar {c : Char} (h : isLiteralChar c = true) : isQuote c = false := by
  have ne : ∀ d, isLiteralChar d = false → c ≠ d := fun d hd e => by simp [e ▸ h] at hd
  simp [isQuote, ne '"' (by decide), ne '\'' (by decide)]

/-- **A word of literal characters**, not empty. -/
def IsLiteral (w : List Char) : Prop := w ≠ [] ∧ ∀ c ∈ w, isLiteralChar c = true

theorem IsLiteral.isBare {w : List Char} (h : IsLiteral w) : IsBare w :=
  ⟨h.1, fun c hc => isBareChar_of_isLiteralChar (h.2 c hc)⟩

theorem IsLiteral.isPart {w : List Char} (h : IsLiteral w) : IsPart w := .inl h.isBare

theorem isLiteralChar_of_isNameOf {cs : List Char} (h : isNameOf cs = true) :
    ∀ c ∈ cs, isLiteralChar c = true := by
  cases cs with
  | nil => simp
  | cons c cs =>
    simp only [isNameOf, startsName, Bool.and_eq_true, Bool.or_eq_true, decide_eq_true_eq,
      List.all_eq_true] at h
    intro d hd
    rcases List.mem_cons.1 hd with rfl | hd
    · rcases h.1 with hd | hd <;> simp [isLiteralChar, isNameChar, Char.isAlphanum, hd]
    · simp [isLiteralChar, h.2 d hd]

theorem isLiteral_of_isNameOf {cs : List Char} (h : isNameOf cs = true) : IsLiteral cs :=
  ⟨fun e => by simp [e, isNameOf] at h, isLiteralChar_of_isNameOf h⟩

theorem isLiteral_of_isIdentifier {s : String} (h : isIdentifier s = true) : IsLiteral s.toList :=
  isLiteral_of_isNameOf h

theorem isLiteral_toList {s : String} (h : isLiteral s = true) : IsLiteral s.toList := by
  simp only [isLiteral, Bool.and_eq_true, decide_eq_true_eq, List.all_eq_true] at h
  exact ⟨fun e => h.1 (String.toList_eq_nil_iff.1 e), h.2⟩

theorem isLiteral_of_isDottedName {s : String} (h : isDottedName s = true) :
    IsLiteral s.toList := by
  rw [isDottedName, List.all_eq_true] at h
  have joined : List.intercalate ['.'] (s.toList.splitOn '.') = s.toList :=
    List.intercalate_splitOn '.'
  refine ⟨fun e => ?_, ?_⟩
  · simp [e, isNameOf] at h
  · rw [← joined]
    exact forall_mem_intercalate (List.all_iff_forall_prop.1 rfl) fun w hw =>
      isLiteralChar_of_isNameOf (h w hw)

theorem isLiteral_dotted {r : TypeRef} (h : r.isCanonical = true) : IsLiteral r.dotted.toList := by
  obtain ⟨name, _ | qualifier⟩ := r <;>
    simp only [TypeRef.isCanonical, Option.all_none, Option.all_some, Bool.and_true,
      Bool.and_eq_true] at h
  · exact isLiteral_of_isIdentifier h
  · have q := isLiteral_of_isDottedName h.2
    have n := isLiteral_of_isIdentifier h.1
    have ne : qualifier ≠ "" := fun e => q.1 (by simp [e])
    rw [TypeRef.toList_dotted_of_qualifier ne]
    refine ⟨by simp, fun c hc => ?_⟩
    rcases List.mem_append.1 hc with hc | hc
    · exact q.2 c hc
    · rcases List.mem_cons.1 hc with rfl | hc
      · decide
      · exact n.2 c hc

/-! ## Lines of words -/

theorem toList_intercalate_space (ws : List String) :
    (" ".intercalate ws).toList = unwords (ws.map String.toList) := String.toList_intercalate

/-- **A token**: a part of a statement without quotes. -/
def IsToken (v : String) : Prop := IsPart v.toList ∧ ∀ c ∈ v.toList, isQuote c = false

theorem IsLiteral.isToken {v : String} (h : IsLiteral v.toList) : IsToken v :=
  ⟨h.isPart, fun c hc => isQuote_of_isLiteralChar (h.2 c hc)⟩

theorem isToken_of_isIdentifier {v : String} (h : isIdentifier v = true) : IsToken v :=
  (isLiteral_of_isIdentifier h).isToken

theorem isToken_of_isLiteral {v : String} (h : isLiteral v = true) : IsToken v :=
  (isLiteral_toList h).isToken

theorem isToken_of_isPlain {v : String} (h : isPlain v = true) : IsToken v := by
  simp only [isPlain, Bool.and_eq_true, decide_eq_true_eq, List.all_eq_true,
    Bool.not_eq_true'] at h
  exact ⟨.inl ⟨fun e => h.1 (String.toList_eq_nil_iff.1 e), fun c hc => (h.2 c hc).1⟩,
    fun c hc => (h.2 c hc).2⟩

theorem isToken_equals : IsToken "=" := ⟨.inr rfl, List.all_iff_forall_prop.1 rfl⟩

theorem isToken_toString (n : Int) : IsToken (toString n) := by
  have digit : ∀ {m : Nat} {c : Char}, c ∈ decimal m → isLiteralChar c = true := fun hc => by
    simp [isLiteralChar, isNameChar, Char.isAlphanum, isDigit_of_mem_decimal hc]
  cases n with
  | ofNat n =>
    have chars : (toString (Int.ofNat n)).toList = decimal n := toList_toString_ofNat n
    exact IsLiteral.isToken ⟨chars ▸ Nat.toDigits_ne_nil, fun c hc => digit (chars ▸ hc)⟩
  | negSucc n =>
    have chars := toList_toString_negSucc n
    have minus : ∀ {p : Char → Prop}, p '-' → (∀ c, isLiteralChar c = true → p c) →
        ∀ c ∈ (toString (Int.negSucc n)).toList, p c := fun hm hl c hc => by
      rw [chars] at hc
      rcases List.mem_cons.1 hc with rfl | hc
      · exact hm
      · exact hl c (digit hc)
    have ne : (toString (Int.negSucc n)).toList ≠ [] := by
      rw [chars]
      exact List.cons_ne_nil _ _
    exact ⟨.inl ⟨ne, minus (by decide) fun _ => isBareChar_of_isLiteralChar⟩,
      minus (by decide) fun _ => isQuote_of_isLiteralChar⟩

/-- **The line can be read on its own.** -/
def SourceLine.Sound (l : SourceLine) : Prop := Makes l.text.toList l.statement.toList

namespace SourceLine

variable {w : String} {ws : List String}

theorem forall_mem_map_toList {p : List Char → Prop} (h : ∀ v ∈ ws, p v.toList) :
    ∀ v ∈ ws.map String.toList, p v := fun v hv => by
  obtain ⟨u, hu, rfl⟩ := List.mem_map.1 hv
  exact h u hu

theorem sound_ended (h : ∀ v ∈ w :: ws, IsPart v.toList) : (ended (w :: ws)).Sound := by
  have line := makes_unwords (forall_mem_map_toList h)
  rw [Sound, text, statement, String.toList_append, toList_intercalate_space]
  exact line

theorem sound_opening (h : ∀ v ∈ w :: ws, IsPart v.toList) : (opening (w :: ws)).Sound := by
  have line := makes_unwords_opening (forall_mem_map_toList h)
  rw [Sound, text, statement, String.toList_append, toList_intercalate_space]
  exact line

theorem sound_closing : closing.Sound := makes_closing

/-- A block is sound if its head is of tokens and its body is sound. -/
theorem sound_block {body : List SourceLine} (head : ∀ v ∈ w :: ws, IsToken v)
    (h : ∀ l ∈ body, l.Sound) : ∀ l ∈ block (w :: ws) body, l.Sound := by
  intro l hl
  simp only [block, List.mem_cons, List.mem_append, List.not_mem_nil, or_false] at hl
  rcases hl with rfl | hl | rfl
  · exact sound_opening fun v hv => (head v hv).1
  · exact h l hl
  · exact sound_closing

end SourceLine

/-! ## Methods -/

/-- The gap between the two types of a method. -/
def returnsGap : List Char := [')', ' ', 'r', 'e', 't', 'u', 'r', 'n', 's', ' ', '(']

/-- The text of a method's statement. -/
def rpcText (name argument result : List Char) : List Char :=
  ['r', 'p', 'c', ' '] ++ name ++ [' ', '('] ++ argument ++ returnsGap ++ result ++ [')']

section Rpc

variable {name argument result : List Char}

theorem mem_rpcText (hn : IsLiteral name) (ha : IsLiteral argument) (hr : IsLiteral result)
    {p : Char → Prop} (literal : ∀ c, isLiteralChar c = true → p c)
    (others : ∀ c ∈ [' ', '(', ')'], p c) : ∀ c ∈ rpcText name argument result, p c := by
  have known : ∀ {cs : List Char}, (∀ c ∈ cs, isLiteralChar c = true ∨ c ∈ [' ', '(', ')']) →
      ∀ c ∈ cs, p c := fun h c hc => (h c hc).elim (literal c) (others c)
  intro c hc
  simp only [rpcText, List.mem_append] at hc
  rcases hc with (((((hc | hc) | hc) | hc) | hc) | hc) | hc
  · exact known (List.all_iff_forall_prop.1 rfl) c hc
  · exact literal c (hn.2 c hc)
  · exact known (List.all_iff_forall_prop.1 rfl) c hc
  · exact literal c (ha.2 c hc)
  · exact known (List.all_iff_forall_prop.1 rfl) c hc
  · exact literal c (hr.2 c hc)
  · exact known (List.all_iff_forall_prop.1 rfl) c hc

theorem not_mem_rpcText (hn : IsLiteral name) (ha : IsLiteral argument) (hr : IsLiteral result)
    {d : Char} (bare : isBareChar d = false) (others : ∀ c ∈ [' ', '(', ')'], c ≠ d) :
    d ∉ rpcText name argument result := fun hd =>
  mem_rpcText hn ha hr (p := (· ≠ d))
    (fun _ hc => ne_of_isBareChar (isBareChar_of_isLiteralChar hc) bare) others d hd rfl

/-- The words of a method's statement. -/
def rpcWords (name argument result : List Char) : List (List Char) :=
  [['r', 'p', 'c'], name, '(' :: argument ++ [')'], ['r', 'e', 't', 'u', 'r', 'n', 's'],
    '(' :: result ++ [')']]

theorem unwords_rpcWords :
    unwords (rpcWords name argument result) = rpcText name argument result := by
  simp [unwords, rpcWords, rpcText, returnsGap, List.intercalate_cons_cons]

theorem isWord_parens {w : List Char} (h : IsLiteral w) : IsWord ('(' :: w ++ [')']) := by
  refine ⟨by simp, fun c hc => ?_⟩
  simp only [List.cons_append, List.mem_cons, List.mem_append, List.not_mem_nil, or_false] at hc
  rcases hc with rfl | hc | rfl
  · decide
  · exact isBlank_of_isBareChar (h.isBare.2 c hc)
  · decide

theorem isWord_of_mem_rpcWords (hn : IsLiteral name) (ha : IsLiteral argument)
    (hr : IsLiteral result) : ∀ w ∈ rpcWords name argument result, IsWord w := by
  simp only [rpcWords, List.mem_cons, List.not_mem_nil, or_false, forall_eq_or_imp, forall_eq]
  exact ⟨⟨by simp, List.all_iff_forall_prop.1 rfl⟩, hn.isBare.isWord, isWord_parens ha,
    ⟨by simp, List.all_iff_forall_prop.1 rfl⟩, isWord_parens hr⟩

theorem closing_not_mem {w : List Char} (h : IsLiteral w) : ')' ∉ w :=
  h.isBare.not_mem (by decide)

/-- Spacing around `returns` that is there already is left alone. -/
theorem copies_returns : returnsBetween.Copies returnsGap := fun rest => by
  have fits : returnsBetween (returnsGap ++ rest) = some (returnsGap, 10) := rfl
  exact replaceAll_cons_of_some fits

theorem normalize_rpcText (hn : IsLiteral name) (ha : IsLiteral argument)
    (hr : IsLiteral result) :
    normalize (rpcText name argument result) = rpcText name argument result := by
  have equals : '=' ∉ rpcText name argument result :=
    not_mem_rpcText hn ha hr (by decide) (List.all_iff_forall_prop.1 rfl)
  have front : returnsBetween.Copies (['r', 'p', 'c', ' '] ++ name ++ [' ', '('] ++ argument) :=
    copies_returnsBetween (by simp [closing_not_mem hn, closing_not_mem ha])
  have copied : replaceAll returnsBetween (rpcText name argument result)
      = rpcText name argument result := by
    have all := (front.append copies_returns).append (copies_returnsBetween (closing_not_mem hr))
    exact all [')']
  rw [Source.normalize, spaceEquals_of_not_mem equals, copied, ← unwords_rpcWords, collapse,
    words_unwords (isWord_of_mem_rpcWords hn ha hr)]

theorem inline_rpcText (hn : IsLiteral name) (ha : IsLiteral argument) (hr : IsLiteral result) :
    Inline (rpcText name argument result) where
  starts := ⟨'r', _, rfl, by decide⟩
  unslashed := not_mem_rpcText hn ha hr (by decide) (List.all_iff_forall_prop.1 rfl)
  unbroken := mem_rpcText hn ha hr
    (fun c hc => isLineBreak_of_isBareChar (isBareChar_of_isLiteralChar hc))
    (List.all_iff_forall_prop.1 rfl)
  undelimited := mem_rpcText hn ha hr
    (fun c hc => ofDelimiter?_of_isBareChar (isBareChar_of_isLiteralChar hc))
    (List.all_iff_forall_prop.1 rfl)

/-- No body follows the parentheses of a method that a semicolon ends. -/
theorem copies_emptyBody_rpcText (hn : IsLiteral name) (ha : IsLiteral argument)
    (hr : IsLiteral result) : emptyBody.Copies (rpcText name argument result ++ [';']) := by
  have front : emptyBody.Copies (['r', 'p', 'c', ' '] ++ name ++ [' ', '('] ++ argument) :=
    copies_emptyBody (by simp [closing_not_mem hn, closing_not_mem ha])
  have inner : emptyBody.Copies returnsGap := fun rest =>
    (replaceAll_cons_of_none rfl).trans (congrArg _ (copies_emptyBody (by decide) rest))
  have last : emptyBody.Copies [')', ';'] := fun rest =>
    (replaceAll_cons_of_none rfl).trans (congrArg _ (copies_emptyBody (by decide) rest))
  have all := ((front.append inner).append (copies_emptyBody (closing_not_mem hr))).append last
  rw [rpcText, List.append_assoc _ [')'] [';']]
  exact all

theorem makes_rpcText (hn : IsLiteral name) (ha : IsLiteral argument) (hr : IsLiteral result) :
    Makes (rpcText name argument result ++ [';']) (rpcText name argument result) :=
  makes_ended (inline_rpcText hn ha hr) (normalize_rpcText hn ha hr)
    (copies_emptyBody_rpcText hn ha hr)

end Rpc

/-! ## The lines of a canonical document -/

theorem Setting.isToken_of_mem {o : Setting} (h : o.isCanonical = true) :
    ∀ v ∈ ["option", o.name, "=", o.value], IsToken v := by
  simp only [Setting.isCanonical, Bool.and_eq_true] at h
  simp only [List.mem_cons, List.not_mem_nil, or_false, forall_eq_or_imp, forall_eq]
  exact ⟨isToken_of_isIdentifier (by decide), isToken_of_isLiteral h.1, isToken_equals,
    isToken_of_isLiteral h.2⟩

theorem Setting.sound_source {o : Setting} (h : o.isCanonical = true) : o.source.Sound :=
  SourceLine.sound_ended fun v hv => (Setting.isToken_of_mem h v hv).1

theorem isToken_of_mem_modifier {f : Field} {v : String} (h : v ∈ f.modifier) : IsToken v := by
  have words : v = "repeated" ∨ v = "optional" := by
    unfold Field.modifier at h
    split_ifs at h <;> simp_all
  rcases words with rfl | rfl <;> exact isToken_of_isIdentifier (by decide)

/-- The words of a field's line. -/
def Field.words (f : Field) : List String :=
  f.modifier ++ [f.type.dotted, f.name, "=", toString f.number]

theorem Field.isToken_of_mem_words {f : Field} (h : f.isCanonical = true) :
    ∀ v ∈ f.words, IsToken v := by
  simp only [Field.isCanonical, Bool.and_eq_true] at h
  obtain ⟨⟨⟨⟨name, type⟩, -⟩, -⟩, -⟩ := h
  intro v hv
  simp only [Field.words, List.mem_append, List.mem_cons, List.not_mem_nil, or_false] at hv
  rcases hv with hv | rfl | rfl | rfl | rfl
  · exact isToken_of_mem_modifier hv
  · exact (isLiteral_dotted type).isToken
  · exact isToken_of_isIdentifier name
  · exact isToken_equals
  · exact isToken_toString f.number

theorem Field.sound_source {f : Field} (h : f.isCanonical = true) : f.source.Sound := by
  have token := Field.isToken_of_mem_words h
  change (SourceLine.ended f.words).Sound
  cases words : f.words with
  | nil => simp [Field.words] at words
  | cons w ws => exact SourceLine.sound_ended fun v hv => (token v (words ▸ hv)).1

theorem EnumValue.isToken_of_mem {v : EnumValue} (h : v.isCanonical = true) :
    ∀ w ∈ [v.name, "=", toString v.number], IsToken w := by
  simp only [EnumValue.isCanonical, Bool.and_eq_true] at h
  obtain ⟨⟨name, -⟩, -⟩ := h
  simp only [List.mem_cons, List.not_mem_nil, or_false, forall_eq_or_imp, forall_eq]
  exact ⟨isToken_of_isIdentifier name, isToken_equals, isToken_toString v.number⟩

theorem EnumValue.sound_source {v : EnumValue} (h : v.isCanonical = true) : v.source.Sound :=
  SourceLine.sound_ended fun w hw => (EnumValue.isToken_of_mem h w hw).1

theorem EnumEntry.sound_source {e : EnumEntry} (h : e.isCanonical = true) : e.source.Sound := by
  cases e with
  | value v => exact EnumValue.sound_source h
  | setting o => exact Setting.sound_source h

/-- A keyword and a name make the head of a block. -/
theorem isToken_of_mem_head {keyword name : String} (hk : isIdentifier keyword = true)
    (hn : isIdentifier name = true) : ∀ v ∈ [keyword, name], IsToken v := by
  simp only [List.mem_cons, List.not_mem_nil, or_false, forall_eq_or_imp, forall_eq]
  exact ⟨isToken_of_isIdentifier hk, isToken_of_isIdentifier hn⟩

theorem EnumDecl.sound_source {d : EnumDecl} (h : d.isCanonical = true) :
    ∀ l ∈ d.source, l.Sound := by
  simp only [EnumDecl.isCanonical, Bool.and_eq_true, List.all_eq_true] at h
  refine SourceLine.sound_block (isToken_of_mem_head (by decide) h.1) fun l hl => ?_
  obtain ⟨e, he, rfl⟩ := List.mem_map.1 hl
  exact EnumEntry.sound_source (h.2 e he)

mutual

theorem Entry.sound_source : ∀ {e : Entry}, e.isCanonical = true → ∀ l ∈ e.source, l.Sound
  | .field f, h => by
      simpa [Entry.source] using Field.sound_source h
  | .setting o, h => by
      simpa [Entry.source] using Setting.sound_source h
  | .enum d, h => EnumDecl.sound_source h
  | .message name body, h => by
      simp only [Entry.isCanonical, Bool.and_eq_true] at h
      obtain ⟨⟨named, -⟩, entries⟩ := h
      exact SourceLine.sound_block (isToken_of_mem_head (by decide) named)
        (Entry.sound_sourceOf entries)

theorem Entry.sound_sourceOf :
    ∀ {es : List Entry}, Entry.areCanonical es = true → ∀ l ∈ Entry.sourceOf es, l.Sound
  | [], _ => by simp [Entry.sourceOf]
  | e :: es, h => by
      simp only [Entry.areCanonical, Bool.and_eq_true] at h
      intro l hl
      rcases List.mem_append.1 hl with hl | hl
      · exact Entry.sound_source h.1 l hl
      · exact Entry.sound_sourceOf h.2 l hl

end

theorem Rpc.toList_statement (r : Rpc) :
    r.source.statement.toList
      = rpcText r.name.toList r.argument.dotted.toList r.result.dotted.toList := by
  rw [← unwords_rpcWords, Rpc.source, SourceLine.statement, toList_intercalate_space]
  simp [rpcWords]

/-- The name and the types of a method are words of literal characters. -/
theorem Rpc.isLiteral_parts {r : Rpc} (h : r.isCanonical = true) :
    IsLiteral r.name.toList ∧ IsLiteral r.argument.dotted.toList
      ∧ IsLiteral r.result.dotted.toList := by
  simp only [Rpc.isCanonical, TypeRef.isCanonicalInRpc, Bool.and_eq_true] at h
  obtain ⟨⟨⟨name, -⟩, argument, -⟩, result, -⟩ := h
  exact ⟨isLiteral_of_isIdentifier name, isLiteral_dotted argument, isLiteral_dotted result⟩

theorem Rpc.sound_source {r : Rpc} (h : r.isCanonical = true) : r.source.Sound := by
  obtain ⟨name, argument, result⟩ := Rpc.isLiteral_parts h
  have line := makes_rpcText name argument result
  rw [← Rpc.toList_statement] at line
  change Makes (r.source.statement ++ ";").toList _
  rw [String.toList_append]
  exact line

theorem ServiceEntry.sound_source {e : ServiceEntry} (h : e.isCanonical = true) :
    e.source.Sound := by
  cases e with
  | rpc r => exact Rpc.sound_source h
  | setting o => exact Setting.sound_source h

theorem Service.sound_source {s : Service} (h : s.isCanonical = true) :
    ∀ l ∈ s.source, l.Sound := by
  simp only [Service.isCanonical, Bool.and_eq_true, List.all_eq_true] at h
  refine SourceLine.sound_block (isToken_of_mem_head (by decide) h.1) fun l hl => ?_
  obtain ⟨e, he, rfl⟩ := List.mem_map.1 hl
  exact ServiceEntry.sound_source (h.2 e he)

namespace Document

variable {d : Document}

theorem isPart_quoted {s : String} (h : isPlain s = true) : IsPart ("\"" ++ s ++ "\"").toList := by
  simp only [isPlain, Bool.and_eq_true, List.all_eq_true] at h
  refine .inl ⟨by simp, fun c hc => ?_⟩
  simp only [String.toList_append, List.mem_append] at hc
  rcases hc with (hc | hc) | hc
  · obtain rfl : c = '"' := by simpa using hc
    decide
  · exact (h.2 c hc).1
  · obtain rfl : c = '"' := by simpa using hc
    decide

theorem isToken_of_mem_package (h : isPlain d.package = true) :
    ∀ v ∈ ["package", d.package], IsToken v := by
  simp only [List.mem_cons, List.not_mem_nil, or_false, forall_eq_or_imp, forall_eq]
  exact ⟨isToken_of_isIdentifier (by decide), isToken_of_isPlain h⟩

theorem isPart_of_mem_version {s : String} (h : isPlain s = true) :
    ∀ v ∈ ["syntax", "=", "\"" ++ s ++ "\""], IsPart v.toList := by
  simp only [List.mem_cons, List.not_mem_nil, or_false, forall_eq_or_imp, forall_eq]
  exact ⟨(isToken_of_isIdentifier (by decide)).1, isToken_equals.1, isPart_quoted h⟩

theorem sound_versionSource (h : d.version = "" ∨ isPlain d.version = true) :
    ∀ l ∈ d.versionSource, l.Sound := by
  unfold versionSource
  split
  case isTrue => simp
  case isFalse ne =>
    rw [List.forall_mem_singleton]
    exact SourceLine.sound_ended (isPart_of_mem_version (h.resolve_left ne))

theorem sound_packageSource (h : d.package = "" ∨ isPlain d.package = true) :
    ∀ l ∈ d.packageSource, l.Sound := by
  unfold packageSource
  split
  case isTrue => simp
  case isFalse ne =>
    rw [List.forall_mem_singleton]
    exact SourceLine.sound_ended fun v hv => (isToken_of_mem_package (h.resolve_left ne) v hv).1

/-- **The line of every construct can be read on its own.** -/
theorem sound_sourceLines (h : d.isCanonical = true) : ∀ l ∈ d.sourceLines, l.Sound := by
  simp only [isCanonical, Bool.and_eq_true, Bool.or_eq_true, decide_eq_true_eq,
    List.all_eq_true] at h
  obtain ⟨⟨⟨⟨⟨version, package⟩, -⟩, -⟩, entries⟩, services⟩ := h
  intro l hl
  simp only [sourceLines, List.mem_append, List.mem_flatMap] at hl
  rcases hl with ((hl | hl) | hl) | ⟨s, hs, hl⟩
  · exact sound_versionSource version l hl
  · exact sound_packageSource package l hl
  · exact Entry.sound_sourceOf entries l hl
  · exact Service.sound_source (services s hs) l hl

/-- The text of a line and its statement, as characters. -/
def lineChars (l : SourceLine) : List Char × List Char := (l.text.toList, l.statement.toList)

theorem toList_source (d : Document) :
    d.source.toList = unlines ((d.sourceLines.map lineChars).map Prod.fst) := by
  rw [source, String.toList_join, unlines, List.flatMap_map, List.flatMap_map, List.flatMap_map]
  exact List.flatMap_congr fun l _ => String.toList_append

/-- **The statements of a canonical source are those of its lines.** -/
theorem statements_source (h : d.isCanonical = true) :
    statements d.source = d.sourceLines.map SourceLine.statement := by
  have makes : ∀ l ∈ d.sourceLines.map lineChars, Makes l.1 l.2 := fun l hl => by
    obtain ⟨line, hline, rfl⟩ := List.mem_map.1 hl
    exact sound_sourceLines h line hline
  rw [statements, toList_source, statementChars_of_lines makes, List.map_map, List.map_map]
  exact List.map_congr_left fun l _ => String.ofList_toList

end Document

end ProtoSchema
