import ProtoSchema.Proofs.Methods.Keyword

/-!
# Proofs/Methods/Parts — the parts of a method

A method's statement is cut into parts at blanks and at parentheses.  The normal form moves blanks
only, next to blanks or to parentheses, so it has the parts of the text it is made from
(`rpcParts_normalize`).  The parts of a spelling are its keyword, names and types, with `stream`
where it is written (`MethodSpelling.rpcParts_content`), and its tokens are those without `stream`.
-/

namespace ProtoSchema

open Text Source

/-! ## Cutting at blanks and parentheses -/

theorem isRpcGap_of_isBlank {c : Char} (h : isBlank c = true) : isRpcGap c = true := by
  simp [isRpcGap, h]

theorem Blanks.isRpcGap (b : Blanks) : ∀ c ∈ b.chars, isRpcGap c = true := fun c hc =>
  isRpcGap_of_isBlank (b.blank c hc)

section Cutting

variable {cs ds p u : List Char}

/-- Blanks and parentheses in front of a text are in no part. -/
theorem rpcParts_gaps_append : ∀ {u : List Char}, (∀ c ∈ u, isRpcGap c = true) → ∀ b,
    rpcParts (u ++ b) = rpcParts b
  | [], _, _ => rfl
  | c :: u, h, b => by
      obtain ⟨first, others⟩ := List.forall_mem_cons.1 h
      have cut : rpcParts (c :: (u ++ b)) = rpcParts (u ++ b) := rpcParts_append_cons first [] _
      rw [List.cons_append, cut, rpcParts_gaps_append others]

theorem rpcParts_of_gaps (h : ∀ c ∈ u, isRpcGap c = true) : rpcParts u = [] := by
  have none := rpcParts_gaps_append h []
  rwa [List.append_nil] at none

/-- Nor are those after a text. -/
theorem rpcParts_append_gaps (h : ∀ c ∈ u, isRpcGap c = true) (a : List Char) :
    rpcParts (a ++ u) = rpcParts a := by
  cases u with
  | nil => rw [List.append_nil]
  | cons c u =>
    obtain ⟨first, others⟩ := List.forall_mem_cons.1 h
    rw [rpcParts_append_cons first, rpcParts_of_gaps others, List.append_nil]

/-- Those inside a text part what they stand between. -/
theorem rpcParts_append_gaps_append (ne : u ≠ []) (h : ∀ c ∈ u, isRpcGap c = true)
    (a b : List Char) : rpcParts (a ++ u ++ b) = rpcParts a ++ rpcParts b := by
  obtain ⟨c, u, rfl⟩ := List.exists_cons_of_ne_nil ne
  obtain ⟨first, others⟩ := List.forall_mem_cons.1 h
  rw [List.append_assoc, List.cons_append, rpcParts_append_cons first, rpcParts_gaps_append others]

/-- A brace that a body opens with is a part of its own. -/
theorem rpcParts_opening (h : ∀ c ∈ u, isRpcGap c = true) :
    rpcParts (u ++ [' ', '{']) = ["\x7b"] := by
  rw [rpcParts_gaps_append h]
  rfl

/-! ## The normal form -/

/-- **The parts of a text are those of its words.** -/
theorem rpcParts_eq_flatMap_words (cs : List Char) : rpcParts cs = (words cs).flatMap rpcParts := by
  refine splitOnP_induction (p := isBlank)
    (motive := fun cs ws => rpcParts cs = (ws.filter (!·.isEmpty)).flatMap rpcParts)
    (fun cs _ => ?_) (fun a s b _ blank ih => ?_) cs
  · cases cs <;> simp
  · rw [rpcParts_append_cons (isRpcGap_of_isBlank blank), ih]
    cases a <;> simp

theorem rpcParts_collapse (cs : List Char) : rpcParts (collapse cs) = rpcParts cs := by
  rw [rpcParts_eq_flatMap_words, words_collapse, ← rpcParts_eq_flatMap_words]

/-- `returns` between parentheses is a part of its own, however it is spaced. -/
theorem rpcParts_returns (h : IsReturns p) (a b : List Char) :
    rpcParts (a ++ (p ++ b)) = rpcParts a ++ "returns" :: rpcParts b := by
  obtain ⟨before, after, hb, ha, rfl⟩ := h
  have gap : ∀ {u : List Char}, (∀ c ∈ u, isBlank c = true) → ∀ c ∈ u, isRpcGap c = true :=
    fun hu c hc => isRpcGap_of_isBlank (hu c hc)
  have word : rpcParts "returns".toList = ["returns"] := rpcParts_literal isLiteral_returns
  calc rpcParts (a ++ (')' :: (before ++ ("returns".toList ++ (after ++ ['(']))) ++ b))
      = rpcParts (a ++ ')' :: (before ++ ("returns".toList ++ after ++ '(' :: b))) := by simp
    _ = rpcParts a ++ (rpcParts ("returns".toList ++ after) ++ rpcParts b) := by
      rw [rpcParts_append_cons (by decide), rpcParts_gaps_append (gap hb),
        rpcParts_append_cons (by decide)]
    _ = rpcParts a ++ "returns" :: rpcParts b := by rw [rpcParts_append_gaps (gap ha), word]; rfl

theorem isReturns_spaced : IsReturns ") returns (".toList :=
  ⟨[' '], [' '], Gap.space.blank, Gap.space.blank, rfl⟩

/-- Spacing `returns` keeps the parts.  The text before is general, since the characters copied on
the way join it. -/
theorem rpcParts_of_replaced (h : Replaced IsReturns ") returns (".toList cs ds) :
    ∀ a, rpcParts (a ++ ds) = rpcParts (a ++ cs) := by
  induction h with
  | nil => exact fun _ => rfl
  | @copy cs ds c _ ih =>
    intro a
    have moved := ih (a ++ [c])
    rwa [List.append_assoc, List.append_assoc] at moved
  | @replace p cs ds hp _ ih =>
    intro a
    have same : rpcParts ds = rpcParts cs := ih []
    rw [rpcParts_returns isReturns_spaced, rpcParts_returns hp, same]

/-- **The normal form has the parts of the text**, if there is no equals sign. -/
theorem rpcParts_normalize (h : '=' ∉ cs) : rpcParts (normalize cs) = rpcParts cs := by
  rw [Source.normalize, rpcParts_collapse, spaceEquals_of_not_mem h]
  exact rpcParts_of_replaced (returnsBetween_finds.replaced cs) []

end Cutting

/-! ## The parts of a spelling -/

namespace TypeSpelling

variable (t : TypeSpelling)

/-- The parts of a type: `stream` if it is written, and the type. -/
def parts : List String :=
  match t.stream with
  | some _ => ["stream", t.token]
  | none => [t.token]

theorem rpcParts_streamed : rpcParts (t.streamed ++ t.token.toList) = t.parts := by
  have token : rpcParts t.token.toList = [t.token] := by
    rw [rpcParts_literal t.isLiteral_token, String.ofList_toList]
  have stream : rpcParts "stream".toList = ["stream"] := rpcParts_literal isLiteral_stream
  rw [streamed, parts]
  cases t.stream with
  | none => exact token
  | some gap =>
    dsimp only
    rw [rpcParts_append_gaps_append gap.ne_nil gap.toBlanks.isRpcGap, stream, token]
    rfl

/-- **A type in its parentheses**, with any text before and after it. -/
theorem rpcParts_front (a b : List Char) :
    rpcParts (a ++ t.front ++ ')' :: b) = rpcParts a ++ t.parts ++ rpcParts b := by
  have inner : rpcParts (t.opened.chars ++ t.streamed ++ t.token.toList ++ t.closing.chars)
      = t.parts := by
    rw [rpcParts_append_gaps t.closing.isRpcGap, List.append_assoc,
      rpcParts_gaps_append t.opened.isRpcGap, t.rpcParts_streamed]
  have opened : rpcParts (a ++ t.front) = rpcParts a ++ t.parts := by
    rw [front, ← List.append_assoc, rpcParts_append_cons (by decide),
      rpcParts_append_gaps t.before.isRpcGap, inner]
  rw [rpcParts_append_cons (by decide), opened]

theorem token_ne_stream : t.token ≠ "stream" := by
  rw [token]
  split_ifs with rooted
  · intro same
    have dot := congrArg (fun s => s.toList.head?) same
    simp at dot
  · exact t.unreserved.resolve_left rooted

/-- The type is the part that counts. -/
theorem filter_parts : t.parts.filter isRpcToken = [t.token] := by
  have token := isRpcToken_of_isLiteral t.isLiteral_token t.token_ne_stream
  have stream : isRpcToken "stream" = false := by decide
  rw [parts]
  cases t.stream <;> simp [token, stream]

end TypeSpelling

namespace MethodSpelling

variable (m : MethodSpelling) {u : List Char}

/-- **The parts of a method**, with any text after it. -/
theorem rpcParts_content (u : List Char) :
    rpcParts ("rpc".toList ++ m.gap.chars ++ (m.content ++ ')' :: u))
      = ["rpc", m.name] ++ m.argument.parts ++ ["returns"] ++ m.result.parts ++ rpcParts u := by
  have keyword : rpcParts "rpc".toList = ["rpc"] := rpcParts_literal isLiteral_rpc
  have name : rpcParts m.name.toList = [m.name] := by
    rw [rpcParts_literal (isLiteral_of_isIdentifier m.named), String.ofList_toList]
  have returns : rpcParts "returns".toList = ["returns"] := rpcParts_literal isLiteral_returns
  have result : rpcParts (m.argument.after.chars ++ "returns".toList ++ m.result.front ++ ')' :: u)
      = ["returns"] ++ m.result.parts ++ rpcParts u := by
    rw [m.result.rpcParts_front, rpcParts_gaps_append m.argument.after.isRpcGap, returns]
  have split : m.content ++ ')' :: u = m.name.toList ++ m.argument.front
      ++ ')' :: (m.argument.after.chars ++ "returns".toList ++ m.result.front ++ ')' :: u) := by
    simp [content, TypeSpelling.chars]
  rw [rpcParts_append_gaps_append m.gap.ne_nil m.gap.toBlanks.isRpcGap, split,
    m.argument.rpcParts_front, keyword, name, result]
  simp

/-- **The tokens of a method**, however it is spelled and whether or not it opens a body. -/
theorem rpcTokens_normalize (equals : '=' ∉ u) (bare : ∀ w ∈ rpcParts u, w = "\x7b") :
    rpcTokens (normalize ("rpc".toList ++ m.gap.chars ++ (m.content ++ ')' :: u)))
      = ["rpc", m.name, m.argument.token, "returns", m.result.token] := by
  have equals' : '=' ∉ "rpc".toList ++ m.gap.chars ++ (m.content ++ ')' :: u) := by
    have gap := not_mem_of_isHeadChar m.gap.isHeadChar (d := '=') (by decide)
    have content := not_mem_of_isHeadChar m.isHeadChar_content (d := '=') (by decide)
    simp [gap, content, equals]
  have name := isRpcToken_of_isLiteral (isLiteral_of_isIdentifier m.named) m.unreserved
  have head : ["rpc", m.name].filter isRpcToken = ["rpc", m.name] := by
    have keyword : isRpcToken "rpc" = true := rfl
    simp [keyword, name]
  have returns : ["returns"].filter isRpcToken = ["returns"] := rfl
  have rest : (rpcParts u).filter isRpcToken = [] :=
    List.filter_eq_nil_iff.2 fun w hw => by simp [bare w hw, isRpcToken]
  rw [rpcTokens_eq, rpcParts_normalize equals', rpcParts_content]
  simp only [List.filter_append, head, returns, TypeSpelling.filter_parts, rest]
  rfl

end MethodSpelling

end ProtoSchema
