import ProtoSchema.Proofs.Document.RoundTrip
import ProtoSchema.Proofs.Methods.Parts
import ProtoSchema.Proofs.Methods.Pieces

/-!
# Proofs/Methods/Reading — every spelling of a service is read as the service

The statements of a method add the method to the service that is open (`MethodSpelling.reads`): the
first of them names its types, and a body that it opens is skipped up to its closing brace.  So a
spelled service is read as the service it spells (`ofText_serviceSpelling`).
-/

namespace ProtoSchema

open Text Source

/-! ## Types -/

/-- A dot in front of a reference says nothing. -/
theorem TypeRef.ofToken_dot (s : String) : ofToken ("." ++ s) = ofToken s := by
  rw [ofToken, ofToken, String.toList_append]
  rfl

theorem TypeSpelling.resolve_token (t : TypeSpelling) :
    ImportTable.empty.resolve t.token = (t.type, .empty) := by
  have dotted := ImportTable.resolve_empty t.canonical
  rw [token]
  split_ifs
  · rwa [ImportTable.resolve, TypeRef.ofToken_dot]
  · exact dotted

/-! ## Options -/

/-- An option in a skipped frame is dropped. -/
theorem OptionSpelling.reads (o : OptionSpelling) (d : Draft) (name : String) :
    (d.within (.skipped name)).ReadsTexts [String.ofList o.statement] (d.within (.skipped name)) :=
  by
  have read := ofText_keyword_ended (k := "option") isLiteral_option o.gap o.undelimited_content
  refine Draft.readsTexts_of_accept fun previous => ?_
  rw [statement, read]
  change some ((d.within (.skipped name)).acceptSetting _).draft = _
  rw [Draft.acceptSetting]
  split <;> rfl

/-- So are all options of a body, and the brace after them closes the frame. -/
theorem OptionSpelling.reads_body (options : List OptionSpelling) (d : Draft) (name : String) :
    (d.within (.skipped name)).ReadsTexts
      ((options.map statement ++ [['}']]).map String.ofList) d := by
  have each := Draft.ReadsTexts.flatMap (p := fun _ => d.within (.skipped name))
    (s := fun o : OptionSpelling => [String.ofList o.statement]) (l := options)
    (fun o _ _ => o.reads d name) []
  have closing : (d.within (.skipped name)).Reads [.closing] d := Draft.reads_closing rfl
  rw [← List.map_eq_flatMap] at each
  have all := each.append closing
  simpa [Function.comp_def, SourceLine.statement] using all

/-! ## Methods -/

namespace MethodSpelling

variable (m : MethodSpelling) {d : Draft} {name : String} {u : List Char}

/-- **A method's statement is known by its first word**, with blanks after its last parenthesis. -/
theorem ofText_statement (blank : ∀ c ∈ u, isBlank c = true) :
    ∃ ts, Statement.ofText (String.ofList (m.statement u))
      = ⟨.rpc, ts, String.ofList (m.statement u), false⟩ := by
  have free : ∀ c ∈ m.content ++ ')' :: u, Lexeme.ofDelimiter? c = none :=
    List.forall_mem_append.2 ⟨undelimited_of_isHeadChar m.isHeadChar_content,
      List.forall_mem_cons.2 ⟨rfl, fun c hc => ofDelimiter?_of_isBlank (blank c hc)⟩⟩
  exact ⟨_, ofText_keyword_ended (k := "rpc") isLiteral_rpc m.gap free⟩

/-- So is one that opens a body. -/
theorem ofText_statement_opening (u : List Char) :
    ∃ ts, Statement.ofText (String.ofList (m.statement (u ++ [' ', '{'])))
      = ⟨.rpc, ts, String.ofList (m.statement (u ++ [' ', '{'])), true⟩ := by
  have read := ofText_keyword_opening (k := "rpc") isLiteral_rpc m.gap (m.content ++ ')' :: u) rfl
  have text : m.statement (u ++ [' ', '{'])
      = normalize ("rpc".toList ++ m.gap.chars ++ (m.content ++ ')' :: u) ++ [' ', '{']) := by
    simp [statement]
  rw [text]
  exact ⟨_, read⟩

/-- **A method's statement adds the method**, and opens a skipped frame if it opens a body. -/
theorem acceptRpc_draft (clean : d.imports = .empty) (body : List ServiceEntry)
    (equals : '=' ∉ u) (bare : ∀ w ∈ rpcParts u, w = "\x7b") (ts : List String) (opens : Bool) :
    ((d.within (.service name body)).acceptRpc
        ⟨.rpc, ts, String.ofList (m.statement u), opens⟩).draft
      = if opens then (d.within (.service name (body ++ [.rpc m.rpc]))).within (.skipped m.name)
        else d.within (.service name (body ++ [.rpc m.rpc])) := by
  have tokens : rpcTokens (String.ofList (m.statement u)).toList
      = ["rpc", m.name, m.argument.token, "returns", m.result.token] := by
    rw [String.toList_ofList]
    exact m.rpcTokens_normalize equals bare
  have argument := m.argument.resolve_token
  have result := m.result.resolve_token
  rw [← clean] at argument result
  have imports : (d.within (.service name body)).imports = d.imports := rfl
  have current : (d.within (.service name body)).scopes.current = some .service := rfl
  simp only [Draft.acceptRpc, tokens, RpcLine.ofTokens?, imports, current, argument, result,
    if_true]
  cases opens <;> rfl

/-- A statement that ends after blanks adds the method. -/
theorem reads_ended (clean : d.imports = .empty) (body : List ServiceEntry) (u : Blanks) :
    (d.within (.service name body)).ReadsTexts [String.ofList (m.statement u.chars)]
      (d.within (.service name (body ++ [.rpc m.rpc]))) := by
  obtain ⟨ts, read⟩ := m.ofText_statement u.blank
  have equals : '=' ∉ u.chars := not_mem_of_blank u.blank (by decide)
  have none := rpcParts_of_gaps u.isRpcGap
  refine Draft.readsTexts_of_accept fun previous => ?_
  rw [read]
  exact congrArg some (m.acceptRpc_draft clean body equals (by simp [none]) ts false)

/-- One that opens a body also opens a skipped frame. -/
theorem reads_opening (clean : d.imports = .empty) (body : List ServiceEntry) (u : Blanks) :
    (d.within (.service name body)).ReadsTexts [String.ofList (m.statement (u.chars ++ [' ', '{']))]
      ((d.within (.service name (body ++ [.rpc m.rpc]))).within (.skipped m.name)) := by
  obtain ⟨ts, read⟩ := m.ofText_statement_opening u.chars
  have equals : '=' ∉ u.chars ++ [' ', '{'] := by
    simp [not_mem_of_blank u.blank (d := '=') (by decide)]
  have brace := rpcParts_opening u.isRpcGap
  refine Draft.readsTexts_of_accept fun previous => ?_
  rw [read]
  exact congrArg some (m.acceptRpc_draft clean body equals (by simp [brace]) ts true)

/-- **The statements of a method add the method**, however it ends. -/
theorem reads (clean : d.imports = .empty) (body : List ServiceEntry) :
    (d.within (.service name body)).ReadsTexts (m.statements.map String.ofList)
      (d.within (.service name (body ++ [.rpc m.rpc]))) := by
  rw [statements]
  cases m.ending with
  | stop => exact m.reads_ended clean body m.result.after
  | body options inside =>
    dsimp only
    split
    case isTrue => exact m.reads_ended clean body .none
    case isFalse =>
      have opened : (d.within (.service name body)).ReadsTexts _ _ :=
        m.reads_opening clean body m.result.after
      exact opened.append (OptionSpelling.reads_body options _ m.name)

end MethodSpelling

/-! ## Services -/

namespace ServiceSpelling

variable (s : ServiceSpelling)

/-- **The head of a service opens its frame.** -/
theorem reads_head : Draft.empty.ReadsTexts [String.ofList s.head]
    (Draft.empty.within (.service s.name [])) := by
  have named := isLiteral_of_isIdentifier s.named
  have equals : '=' ∉ s.name.toList ++ s.opened.chars := by
    simp [named.isBare.not_mem (d := '=') (by decide),
      not_mem_of_blank s.opened.blank (d := '=') (by decide)]
  have closing : ')' ∉ s.name.toList ++ s.opened.chars := by
    simp [closing_not_mem named, not_mem_of_blank s.opened.blank (d := ')') (by decide)]
  have after : wordsAfter (s.name.toList ++ s.opened.chars) = [s.name.toList] := by
    rw [wordsAfter, spaceEquals_of_not_mem equals, (copies_returnsBetween closing).replaceAll_eq,
      words_append_of_blanks s.opened.blank, words_of_isWord named.isBare.isWord]
  have token : tokensOfWords [s.name.toList] = [s.name] := by
    rw [tokensOfWords_keyword named, String.ofList_toList]
    rfl
  have read := ofText_keyword_opening isLiteral_service s.gap (s.name.toList ++ s.opened.chars) rfl
  refine Draft.readsTexts_of_accept fun previous => ?_
  rw [head, read, after, token]
  rfl

/-- The statements of methods add all of them. -/
theorem reads_methods : (Draft.empty.within (.service s.name [])).ReadsTexts
    ((s.methods.flatMap MethodSpelling.statements).map String.ofList)
    (Draft.empty.within (.service s.name (s.methods.map fun m => .rpc m.rpc))) := by
  have all := Draft.ReadsTexts.flatMap
    (p := fun ms => Draft.empty.within (.service s.name (ms.map fun m => .rpc m.rpc)))
    (s := fun m : MethodSpelling => m.statements.map String.ofList) (l := s.methods)
    (fun m _ body => by
      have added : (Draft.empty.within (.service s.name _)).ReadsTexts _ _ :=
        m.reads rfl (body.map fun m => .rpc m.rpc)
      simpa using added) []
  rwa [← List.map_flatMap] at all

end ServiceSpelling

/-- **Every spelling of a service is read as the service**, with its methods in order. -/
theorem Document.ofText_serviceSpelling (s : ServiceSpelling) :
    ofText s.text = .ok ⟨"", "", [], [], [s.service]⟩ := by
  have closing : (Draft.empty.within (.service s.name (s.methods.map fun m => .rpc m.rpc))).Reads
      [.closing] ⟨"", "", .empty, ⟨[], [], [s.service]⟩⟩ := Draft.reads_closing rfl
  obtain ⟨last, run⟩ := s.reads_head.append (s.reads_methods.append closing) none
  have texts : s.statements.map String.ofList = [String.ofList s.head]
      ++ ((s.methods.flatMap MethodSpelling.statements).map String.ofList
        ++ [SourceLine.closing].map SourceLine.statement) := by
    simp [ServiceSpelling.statements, SourceLine.statement]
  rw [← texts] at run
  rw [ofText, s.statements_text]
  exact ofStatements_eq_ok_iff.2 ⟨_, run, rfl⟩

/-- A type without blanks but those after it. -/
def TypeSpelling.plain (type : TypeRef) (after : Blanks) (canonical : type.isCanonical = true)
    (unreserved : type.dotted ≠ "stream") : TypeSpelling :=
  ⟨.none, .none, none, false, type, .none, after, canonical, .inr unreserved⟩

/-- A service with a body on the line, a body on the next line, a body that holds an option, and no
body at all. -/
def callsSpelling : ServiceSpelling :=
  let argument := TypeSpelling.plain ⟨"A", none⟩ .none (by decide) (by decide)
  let result := TypeSpelling.plain ⟨"B", none⟩ .none (by decide) (by decide)
  let streamed : TypeSpelling :=
    ⟨Gap.space.toBlanks, .none, some .space, true, ⟨"B", some "shared"⟩, Gap.newline.toBlanks,
      Gap.space.toBlanks, by decide, .inl rfl⟩
  let option : OptionSpelling :=
    ⟨.none, .space, ⟨['n'], List.forall_mem_singleton.2 rfl, by decide, by decide⟩,
      Gap.space.toBlanks, .none,
      ⟨['v'], List.forall_mem_singleton.2 rfl, by decide, by decide⟩, .none⟩
  ⟨.none, .space, "Calls", .none, [
    ⟨.none, .space, "Get", argument, streamed, .body [] Gap.space.toBlanks, by decide, by decide⟩,
    ⟨.none, .space, "Put", argument, { result with after := Gap.newline.toBlanks },
      .body [] .none, by decide, by decide⟩,
    ⟨.none, .newline, "Cut", argument, result, .body [option] .none, by decide, by decide⟩,
    ⟨.none, .space, "Log", argument, result, .stop, by decide, by decide⟩],
    .none, .none, by decide⟩

/-- The text of this spelling has the service with its four methods. -/
theorem Document.ofText_callsSpelling :
    ofText ("service Calls\x7brpc Get(A)returns (stream .shared.B\n) \x7b \x7d"
        ++ "rpc Put(A)returns(B)\n\x7b\x7drpc\nCut(A)returns(B)\x7boption n =v;\x7d"
        ++ "rpc Log(A)returns(B);\x7d")
      = .ok ⟨"", "", [], [], [⟨"Calls", [.rpc ⟨"Get", ⟨"A", none⟩, ⟨"B", some "shared"⟩⟩,
        .rpc ⟨"Put", ⟨"A", none⟩, ⟨"B", none⟩⟩, .rpc ⟨"Cut", ⟨"A", none⟩, ⟨"B", none⟩⟩,
        .rpc ⟨"Log", ⟨"A", none⟩, ⟨"B", none⟩⟩]⟩]⟩ := by
  have text : callsSpelling.text
      = "service Calls\x7brpc Get(A)returns (stream .shared.B\n) \x7b \x7d"
        ++ "rpc Put(A)returns(B)\n\x7b\x7drpc\nCut(A)returns(B)\x7boption n =v;\x7d"
        ++ "rpc Log(A)returns(B);\x7d" := by decide +kernel
  rw [← text]
  exact ofText_serviceSpelling callsSpelling

end ProtoSchema
