import ProtoSchema.Output.TypeScript
import ProtoSchema.Output.Zod
import ProtoSchema.Proofs.Symbols.Lookup
import ProtoSchema.Proofs.Symbols.PostOrder

/-!
# Proofs/Output/Blocks — what is written, without the symbol table

The output looks every type up in the symbol table, by numbers that it counts by itself.  It finds
just what the reference stands for where it was made: the shapes are those of the declarations in
post-order (`shapes_symbolTable`), and the methods have the types of their references
(`serviceText_symbolTable`).  So either kind of output writes one block for each declaration, unless
a number is too long to be written (`symbolTable_covers`).
-/

namespace ProtoSchema

variable {α β ε : Type}

/-! ## Answers that fail for one reason -/

/-- **The answer is a value if `ok` holds, and else the error `e`.** -/
def FailsUnless (ok : Prop) (e : ε) (answer : Except ε α) : Prop :=
  (ok ∧ ∃ a, answer = .ok a) ∨ (¬ ok ∧ answer = .error e)

namespace FailsUnless

variable {ok : Prop} {e : ε} {answer : Except ε α}

theorem map (h : FailsUnless ok e answer) (g : α → β) : FailsUnless ok e (g <$> answer) := by
  rcases h with ⟨holds, a, rfl⟩ | ⟨fails, rfl⟩
  · exact .inl ⟨holds, g a, rfl⟩
  · exact .inr ⟨fails, rfl⟩

/-- A traversal fails as its members fail. -/
theorem mapM {P : α → Prop} {f : α → Except ε β} (each : ∀ a, FailsUnless (P a) e (f a)) :
    ∀ l : List α, FailsUnless (∀ a ∈ l, P a) e (l.mapM f)
  | [] => .inl ⟨List.forall_mem_nil _, [], rfl⟩
  | a :: l => by
      rw [List.mapM_cons, List.forall_mem_cons]
      rcases each a with ⟨first, b, hb⟩ | ⟨fails, hb⟩
      · rw [hb]
        rcases mapM each l with ⟨others, bs, hbs⟩ | ⟨fails, hbs⟩
        · exact .inl ⟨⟨first, others⟩, b :: bs, by rw [hbs]; rfl⟩
        · exact .inr ⟨fun h => fails h.2, by rw [hbs]; rfl⟩
      · exact .inr ⟨fun h => fails h.1, by rw [hb]; rfl⟩

end FailsUnless

/-- A traversal that has a value for every member. -/
theorem mapM_eq_ok {f : α → Except ε β} {g : α → β} :
    ∀ {l : List α}, (∀ a ∈ l, f a = .ok (g a)) → l.mapM f = .ok (l.map g)
  | [], _ => rfl
  | a :: l, known => by
      obtain ⟨first, others⟩ := List.forall_mem_cons.1 known
      rw [List.mapM_cons, first, mapM_eq_ok others]
      rfl

/-- What a traversal that succeeds answers is the value of each member. -/
theorem forall₂_of_mapM_eq_ok {f : α → Except ε β} :
    ∀ {l : List α} {bs : List β}, l.mapM f = .ok bs → List.Forall₂ (fun a b => f a = .ok b) l bs
  | [], _, h => by
      obtain rfl := Except.ok.inj h
      exact .nil
  | a :: l, _, h => by
      rw [List.mapM_cons] at h
      cases first : f a with
      | error e =>
        rw [first] at h
        exact nomatch h
      | ok b =>
        rw [first] at h
        cases others : l.mapM f with
        | error e =>
          rw [others] at h
          exact nomatch h
        | ok bs =>
          rw [others] at h
          obtain rfl := Except.ok.inj h
          exact .cons first (forall₂_of_mapM_eq_ok others)

/-! ## Shapes without a table -/

namespace Document

variable {d : Document}

/-- The shape of a field in the message at `scope`. -/
def fieldShape (d : Document) (scope : List String) (f : Field) : FieldShape :=
  ⟨f.name, d.names.resolve scope f.type, f.repeated, f.optional⟩

/-- **The shape of a declaration**, its references resolved where it stands. -/
def shapeOf (d : Document) (m : Declared) : Shape :=
  match m.declaration with
  | .enum decl => .enum (flatten m.path) decl.values
  | .message _ body => .record (flatten m.path) ((Entry.fields body).map (d.fieldShape m.path))

/-- The meaning of a method's types. -/
def signature (d : Document) (r : Rpc) : Signature :=
  ⟨d.names.resolve [] r.argument, d.names.resolve [] r.result⟩

/-- The declarations of a document, each after those nested in it. -/
def postDeclared (d : Document) : List Declared := (postDeclaredIn 0 [] d.entries).map Prod.fst

theorem postDeclared_perm (d : Document) : d.postDeclared.Perm d.declared := by
  have numbered := (postDeclaredIn_perm 0 [] d.entries).map Prod.fst
  rwa [List.zipIdx_map_fst] at numbered

/-- A field is found where the output looks it up, with its meaning in its message. -/
theorem field?_of_mem_placedFields {i : ℕ} {m : Declared} (hm : d.declared[i]? = some m)
    {placed : ℕ × Field} (hp : placed ∈ placedFields m.declaration.body) :
    d.symbolTable.field? i placed.1 = some (d.names.resolve m.path placed.2.type) := by
  rw [field?_symbolTable, hm, Option.bind_some, bind_of_mem_placed hp]
  rfl

/-- A method is found where the output looks it up. -/
theorem rpc?_of_mem_placedRpcs {i : ℕ} {s : Service} (hs : d.services[i]? = some s)
    {placed : ℕ × Rpc} (hp : placed ∈ placedRpcs s.body) :
    d.symbolTable.rpc? i placed.1 = some (d.signature placed.2) := by
  rw [rpc?_symbolTable, hs, Option.bind_some, bind_of_mem_placed hp]
  rfl

theorem shape_symbolTable {i : ℕ} {m : Declared} (hm : d.declared[i]? = some m) :
    d.symbolTable.shape d.declared (Symbol.ofDeclared i m) = .ok (d.shapeOf m) := by
  have found : orError OutputError.missingDeclaration d.declared[(Symbol.ofDeclared i m).id]?
      = .ok m := by
    change orError _ d.declared[i]? = _
    rw [hm]
    rfl
  rw [SymbolTable.shape, found]
  obtain ⟨path, decl⟩ := m
  cases decl with
  | enum decl => rfl
  | message name body =>
    have same : (placedFields body).map Prod.snd = Entry.fields body :=
      map_snd_placed Entry.field? body
    have fields : (placedFields body).mapM (d.symbolTable.fieldShape i)
        = .ok ((Entry.fields body).map (d.fieldShape path)) := by
      rw [← same, List.map_map]
      refine mapM_eq_ok fun placed hp => ?_
      rw [SymbolTable.fieldShape, field?_of_mem_placedFields hm hp]
      rfl
    change (do
      let fields ← (placedFields body).mapM (d.symbolTable.fieldShape i)
      return Shape.record (flatten path) fields) = _
    rw [fields]
    rfl

/-- **The shapes of a document are those of its declarations**, in post-order. -/
theorem shapes_symbolTable (d : Document) :
    d.symbolTable.shapes d = .ok (d.postDeclared.map d.shapeOf) := by
  have shapes : ∀ p ∈ postDeclaredIn 0 [] d.entries,
      d.symbolTable.shape d.declared (Symbol.ofNumbered p) = .ok (d.shapeOf p.1) :=
    fun p mem => shape_symbolTable (mem_postDeclared_iff.1 mem)
  change (postOrder d.symbols).mapM _ = _
  rw [postOrder_symbols, List.mapM_map, postDeclared, List.map_map]
  exact mapM_eq_ok shapes

/-! ## Services without a table -/

/-- The line of a method, its types resolved where no message is around. -/
def rpcLine (d : Document) (config : Config) (r : Rpc) : String :=
  TypeScript.methodLine config r (d.signature r)

/-- **What is written for a service.** -/
def serviceBlock (d : Document) (config : Config) (s : Service) : String :=
  TypeScript.interfaceText s.name (s.rpcs.map (d.rpcLine config))

theorem serviceText_symbolTable {i : ℕ} {s : Service} (hs : d.services[i]? = some s)
    (config : Config) :
    TypeScript.serviceText d.symbolTable config i s = .ok (d.serviceBlock config s) := by
  have same : (placedRpcs s.body).map Prod.snd = s.rpcs := map_snd_placed ServiceEntry.rpc? s.body
  rw [TypeScript.serviceText, mapM_eq_ok (g := d.rpcLine config ∘ Prod.snd), ← List.map_map, same]
  · rfl
  · intro placed hp
    change (orError OutputError.missingType (d.symbolTable.rpc? i placed.1) >>= _) = _
    rw [rpc?_of_mem_placedRpcs hs hp]
    rfl

theorem services_symbolTable (d : Document) (config : Config) :
    (d.services.zipIdx.mapM fun (s, id) => TypeScript.serviceText d.symbolTable config id s)
      = .ok (d.services.map (d.serviceBlock config)) := by
  have blocks : ∀ p ∈ d.services.zipIdx,
      TypeScript.serviceText d.symbolTable config p.2 p.1 = .ok (d.serviceBlock config p.1) :=
    fun p mem => serviceText_symbolTable (List.mem_zipIdx_iff_getElem?.1 mem) config
  have same := congrArg (List.map (d.serviceBlock config)) (List.zipIdx_map_fst 0 d.services)
  rw [← same, List.map_map]
  exact mapM_eq_ok blocks

end Document

/-! ## Blocks -/

/-- The members a declaration is written with; a message has none. -/
def Declaration.members : Declaration → List EnumValue
  | .enum decl => decl.values
  | .message _ _ => []

/-- The number has not too many digits to be written. -/
def EnumValue.Writable (v : EnumValue) : Prop := v.number.natAbs < Text.numeralBound

namespace FailsUnless

theorem line (v : EnumValue) : FailsUnless v.Writable .numberTooLong v.line := by
  rw [EnumValue.line, Text.printInt]
  split_ifs with writable
  · exact .inl ⟨writable, _, rfl⟩
  · exact .inr ⟨writable, rfl⟩

theorem memberLines (members : List EnumValue) :
    FailsUnless (∀ v ∈ members, v.Writable) .numberTooLong (memberLines members) :=
  (mapM line members).map String.join

theorem interfaceBlock (d : Document) (m : Declared) :
    FailsUnless (∀ v ∈ m.declaration.members, v.Writable) .numberTooLong
      (TypeScript.shapeText (d.shapeOf m)) := by
  obtain ⟨path, decl⟩ := m
  cases decl with
  | message name body => exact .inl ⟨List.forall_mem_nil _, _, rfl⟩
  | enum decl =>
    simp only [Document.shapeOf, TypeScript.shapeText, bind_pure_comp]
    exact (memberLines decl.values).map _

theorem schemaBlock (d : Document) (m : Declared) :
    FailsUnless (∀ v ∈ m.declaration.members, v.Writable) .numberTooLong
      (Zod.shapeText (d.shapeOf m)) := by
  obtain ⟨path, decl⟩ := m
  cases decl with
  | message name body => exact .inl ⟨List.forall_mem_nil _, _, rfl⟩
  | enum decl =>
    simp only [Document.shapeOf, Zod.shapeText, Zod.schemaText, bind_pure_comp]
    exact ((memberLines decl.values).map _).map _

end FailsUnless

namespace Document

variable {d : Document}

/-- **Every number of the document can be written.** -/
def Writable (d : Document) : Prop := ∀ m ∈ d.declared, ∀ v ∈ m.declaration.members, v.Writable

/-- The text has one block for each declaration between a front and a back, and nothing else. -/
def IsBlocks (d : Document) (write : Shape → Except OutputError String) (front back text : String) :
    Prop :=
  ∃ order blocks, order.Perm d.declared
    ∧ List.Forall₂ (fun m block => write (d.shapeOf m) = .ok block) order blocks
    ∧ text = front ++ String.join blocks ++ back

/-- **The answer is such a text if every number can be written**, and else the error that one is too
long. -/
def EmitsBlocks (d : Document) (write : Shape → Except OutputError String) (front back : String)
    (answer : Except OutputError String) : Prop :=
  (d.Writable ∧ ∃ text, answer = .ok text ∧ d.IsBlocks write front back text)
    ∨ (¬ d.Writable ∧ answer = .error .numberTooLong)

/-- What is written for the shapes of the declarations between a front and a back. -/
def written (d : Document) (write : Shape → Except OutputError String) (front back : String) :
    Except OutputError String := do
  let blocks ← (d.postDeclared.map d.shapeOf).mapM write
  return front ++ String.join blocks ++ back

theorem emitsBlocks_written {write : Shape → Except OutputError String}
    (each : ∀ m, FailsUnless (∀ v ∈ m.declaration.members, v.Writable) .numberTooLong
      (write (d.shapeOf m))) (front back : String) :
    d.EmitsBlocks write front back (d.written write front back) := by
  have writable : d.Writable ↔ ∀ m ∈ d.postDeclared, ∀ v ∈ m.declaration.members, v.Writable :=
    forall_congr' fun m => imp_congr_left d.postDeclared_perm.mem_iff.symm
  rw [EmitsBlocks, written, List.mapM_map, writable]
  rcases FailsUnless.mapM each d.postDeclared with ⟨all, blocks, written⟩ | ⟨fails, tooLong⟩
  · refine .inl ⟨all, _, ?_, d.postDeclared, blocks, d.postDeclared_perm,
      forall₂_of_mapM_eq_ok written, rfl⟩
    change ((d.postDeclared.mapM fun m => write (d.shapeOf m)) >>= _) = _
    rw [written]
    rfl
  · refine .inr ⟨fails, ?_⟩
    change ((d.postDeclared.mapM fun m => write (d.shapeOf m)) >>= _) = _
    rw [tooLong]
    rfl

/-- **The interfaces and enums of a document**, its types resolved where they stand. -/
theorem typeScript_render (d : Document) (config : Config) :
    TypeScript.render d d.symbolTable config
      = d.written TypeScript.shapeText (String.join config.headerLines ++ d.importLines ++ "\n")
        (String.join (d.services.map (d.serviceBlock config))) := by
  rw [TypeScript.render, shapes_symbolTable, services_symbolTable]
  rfl

/-- **The schemas of a document**, its types resolved where they stand. -/
theorem zod_render (d : Document) (config : Config) :
    Zod.render d d.symbolTable config
      = d.written Zod.shapeText ("import \x7b z \x7d from \"zod\";\n"
        ++ String.join config.headerLines ++ d.importLines ++ "\n") "" := by
  rw [Zod.render, shapes_symbolTable, written]
  simp only [String.append_empty]
  rfl

/-- **The symbol table covers what the output looks up.**  It has the declarations in their order,
each with its place as number, and one entry for each field of a message and for each method, by
their positions in the document.  So nothing is missing when the output is written: either kind has
one block for each declaration, unless a number is too long to be written. -/
theorem symbolTable_covers (d : Document) (config : Config) :
    (∀ i : ℕ, d.symbolTable.symbols[i]? = d.declared[i]?.map (Symbol.ofDeclared i))
      ∧ (∀ i j, (i, j) ∈ d.symbolTable.fields.map Prod.fst
        ↔ ∃ path name body f, d.declared[i]? = some ⟨path, .message name body⟩
          ∧ body[j]? = some (.field f))
      ∧ (d.symbolTable.fields.map Prod.fst).Nodup
      ∧ (∀ i j, (i, j) ∈ d.symbolTable.rpcs.map Prod.fst
        ↔ ∃ s r, d.services[i]? = some s ∧ s.body[j]? = some (.rpc r))
      ∧ (d.symbolTable.rpcs.map Prod.fst).Nodup
      ∧ d.EmitsBlocks TypeScript.shapeText
        (String.join config.headerLines ++ d.importLines ++ "\n")
        (String.join (d.services.map (d.serviceBlock config)))
        (TypeScript.render d d.symbolTable config)
      ∧ d.EmitsBlocks Zod.shapeText
        ("import \x7b z \x7d from \"zod\";\n" ++ String.join config.headerLines ++ d.importLines
          ++ "\n") ""
        (Zod.render d d.symbolTable config) := by
  refine ⟨fun i => ?_, fun i j => mem_fieldPositions_iff, nodup_fieldPositions d,
    fun i j => mem_rpcPositions_iff, nodup_rpcPositions d, ?_, ?_⟩
  · simp only [symbolTable, symbols, List.getElem?_map, List.getElem?_zipIdx, Nat.zero_add,
      Option.map_map]
    rfl
  · rw [typeScript_render]
    exact emitsBlocks_written (FailsUnless.interfaceBlock d) _ _
  · rw [zod_render]
    exact emitsBlocks_written (FailsUnless.schemaBlock d) _ _

/-- A document with an enum whose value has too many digits to be written. -/
def longNumber : Document where
  version := ""
  package := ""
  imports := []
  entries := [.enum ⟨"E", [.value ⟨"A", Nat.pow 16 3600⟩]⟩]
  services := []

/-- **A number too long to be written leaves its document without blocks.** -/
theorem render_longNumber :
    longNumber.declared.length = 1
      ∧ TypeScript.render longNumber longNumber.symbolTable .default = .error .numberTooLong
      ∧ Zod.render longNumber longNumber.symbolTable .default = .error .numberTooLong := by
  decide +kernel

end Document

end ProtoSchema
