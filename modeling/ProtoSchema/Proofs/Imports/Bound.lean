import ProtoSchema.Output.TypeScript
import ProtoSchema.Output.Zod
import ProtoSchema.Proofs.Imports.Mentions
import ProtoSchema.Proofs.Symbols.Lookup

/-!
# Proofs/Imports/Bound — when the output imports what it refers to

A reference is an imported type by the names the imports have at the end, but its use was noted by
the names they had when it was read.  So the output imports the type just if the reference was read
under the name that the import of its qualifier had then (`binds_iff_usedAs`): always where the
imports come first, and not where a type is used before its import.
-/

namespace ProtoSchema

open TypeRef

/-! ## References of a document -/

theorem Entry.type_mem_refsOf {f : Field} {es : List Entry} (h : .field f ∈ es) :
    f.type ∈ refsOf es := by
  obtain ⟨xs, ys, rfl⟩ := List.append_of_mem h
  rw [refsOf_append]
  exact List.mem_append_right _ (by simp [refsOf, refs])

mutual

/-- The fields of what an entry declares refer to references of the entry. -/
theorem Entry.type_mem_refs_of_declared {f : Field} {decl : Declared} :
    ∀ {e : Entry} {parent : List String}, decl ∈ e.declared parent →
      .field f ∈ decl.declaration.body → f.type ∈ e.refs
  | .field _, _, h, _ | .setting _, _, h, _ => absurd h List.not_mem_nil
  | .enum d, _, h, hf => by
      obtain rfl := List.mem_singleton.1 h
      exact absurd hf List.not_mem_nil
  | .message name body, parent, h, hf => by
      rcases List.mem_cons.1 h with rfl | h
      · exact Entry.type_mem_refsOf hf
      · exact Entry.type_mem_refsOf_of_declaredIn h hf

theorem Entry.type_mem_refsOf_of_declaredIn {f : Field} {decl : Declared} :
    ∀ {es : List Entry} {parent : List String}, decl ∈ declaredIn parent es →
      .field f ∈ decl.declaration.body → f.type ∈ Entry.refsOf es
  | [], _, h, _ => absurd h List.not_mem_nil
  | _ :: _, _, h, hf => by
      rcases List.mem_append.1 h with h | h
      · exact List.mem_append_left _ (Entry.type_mem_refs_of_declared h hf)
      · exact List.mem_append_right _ (Entry.type_mem_refsOf_of_declaredIn h hf)

end

namespace Document

variable {d : Document} {r : TypeRef} {texts : List String}

/-- **A field or a method of the document has this reference as a type, and the symbol table says
that it is the type of an import.** -/
def RefersToImport (d : Document) (r : TypeRef) : Prop :=
  (∃ id place decl f name, d.declared[id]? = some decl
    ∧ decl.declaration.body[place]? = some (.field f) ∧ f.type = r
    ∧ d.symbolTable.field? id place = some (.imported name))
  ∨ ∃ id place s m types name, d.services[id]? = some s ∧ s.body[place]? = some (.rpc m)
    ∧ d.symbolTable.rpc? id place = some types
    ∧ ((m.argument = r ∧ types.argument = .imported name)
      ∨ (m.result = r ∧ types.result = .imported name))

/-- **The import that is named as the qualifier of the reference has its type in use.** -/
def Binds (d : Document) (r : TypeRef) : Prop :=
  ∃ q i, r.qualifier = some q ∧ d.import? q = some i ∧ r.localName ∈ i.used

theorem RefersToImport.mem_refs (h : d.RefersToImport r) : r ∈ d.refs := by
  rcases h with ⟨id, place, decl, f, name, declared, placed, rfl, -⟩
    | ⟨id, place, s, m, types, name, served, placed, -, types⟩
  · exact List.mem_append_left _ (Entry.type_mem_refsOf_of_declaredIn
      (List.mem_of_getElem? declared) (List.mem_of_getElem? placed))
  · have refs : r ∈ ServiceEntry.refs (.rpc m) := by
      rcases types with ⟨rfl, -⟩ | ⟨rfl, -⟩ <;> simp [ServiceEntry.refs]
    exact List.mem_append_right _ (List.mem_flatMap.2 ⟨s, List.mem_of_getElem? served,
      List.mem_flatMap.2 ⟨_, List.mem_of_getElem? placed, refs⟩⟩)

theorem RefersToImport.qualifier (h : d.RefersToImport r) :
    ∃ q ∈ d.importNames, r.qualifier = some q := by
  rcases h with ⟨id, place, decl, f, name, declared, placed, rfl, type⟩
    | ⟨id, place, s, m, types, name, served, placed, rpc, types⟩
  · rw [field?_symbolTable, declared, Option.bind_some, placed] at type
    exact (Names.resolve_eq_imported_iff.1 (Option.some.inj type)).2
  · rw [rpc?_symbolTable, served, Option.bind_some, placed] at rpc
    obtain rfl := Option.some.inj rpc
    rcases types with ⟨rfl, type⟩ | ⟨rfl, type⟩ <;>
      exact (Names.resolve_eq_imported_iff.1 type).2

/-! ## Imports by name -/

theorem mem_of_import? {q : String} {i : Import} (h : d.import? q = some i) :
    i ∈ d.imports ∧ i.name = q :=
  ⟨List.mem_of_find?_eq_some h, by simpa using List.find?_some h⟩

theorem exists_import? {i : Import} (h : i ∈ d.imports) : ∃ j, d.import? i.name = some j :=
  Option.isSome_iff_exists.1 (List.find?_isSome.2 ⟨i, h, by simp⟩)

theorem binds_iff_uses (distinct : d.importNames.Nodup) {n q : String} :
    d.Binds ⟨n, some q⟩ ↔ ImportTable.Uses ⟨d.imports⟩ q n := by
  constructor
  · rintro ⟨p, i, same, found, used⟩
    obtain rfl := Option.some.inj same
    obtain ⟨hi, named⟩ := mem_of_import? found
    exact ⟨i, hi, named, used⟩
  · rintro ⟨i, hi, rfl, used⟩
    obtain ⟨j, found⟩ := exists_import? hi
    obtain ⟨hj, named⟩ := mem_of_import? found
    obtain rfl := List.inj_on_of_nodup_map distinct hj hi named
    exact ⟨j.name, j, rfl, found, used⟩

/-- Whatever is read, the names of the imports are distinct. -/
theorem nodup_importNames (h : ofStatements texts = .ok d) : d.importNames.Nodup := by
  rw [importNames, (history_of_ofStatements h).1]
  exact ImportTable.distinct_empty.run (importHistory texts)

/-! ## Import lines -/

theorem exists_join_of_mem {s : String} {xs : List String} (h : s ∈ xs) :
    ∃ before after, String.join xs = before ++ s ++ after := by
  obtain ⟨as, bs, rfl⟩ := List.append_of_mem h
  refine ⟨String.join as, String.join bs, String.toList_injective ?_⟩
  simp

theorem exists_of_bind_eq_ok {ε α β : Type} {x : Except ε α} {f : α → Except ε β} {b : β}
    (h : x >>= f = .ok b) : ∃ a, x = .ok a ∧ f a = .ok b := by
  cases x with
  | error e => exact nomatch h
  | ok a => exact ⟨a, rfl, h⟩

/-- The output of either kind has the import lines in it. -/
theorem exists_render_eq {config : Config} {table : SymbolTable} {out : String}
    (h : TypeScript.render d table config = .ok out ∨ Zod.render d table config = .ok out) :
    ∃ before after, out = before ++ d.importLines ++ after := by
  rcases h with h | h
  · obtain ⟨shapes, -, h⟩ := exists_of_bind_eq_ok h
    obtain ⟨services, -, h⟩ := exists_of_bind_eq_ok h
    obtain ⟨texts, -, h⟩ := exists_of_bind_eq_ok h
    obtain rfl := Except.ok.inj h
    exact ⟨String.join config.headerLines, "\n" ++ String.join texts ++ String.join services,
      by simp only [String.append_assoc]⟩
  · obtain ⟨shapes, -, h⟩ := exists_of_bind_eq_ok h
    obtain ⟨texts, -, h⟩ := exists_of_bind_eq_ok h
    obtain rfl := Except.ok.inj h
    exact ⟨"import \x7b z \x7d from \"zod\";\n" ++ String.join config.headerLines,
      "\n" ++ String.join texts, by simp only [String.append_assoc]⟩

/-- **What is bound is imported by a line of the output.** -/
theorem exists_line_of_binds {config : Config} {table : SymbolTable} {out : String}
    (h : d.Binds r)
    (rendered : TypeScript.render d table config = .ok out ∨ Zod.render d table config = .ok out) :
    ∃ i ∈ d.imports, r.qualifier = some i.name ∧ r.localName ∈ i.used
      ∧ ∃ before after, out = before
        ++ ("import \x7b " ++ ", ".intercalate i.used ++ " \x7d from \"" ++ i.directory ++ "/"
          ++ i.name ++ "\";\n") ++ after := by
  obtain ⟨q, i, qualifier, found, used⟩ := h
  obtain ⟨hi, rfl⟩ := mem_of_import? found
  obtain ⟨a, b, rfl⟩ := exists_render_eq rendered
  obtain ⟨c, e, lines⟩ := exists_join_of_mem (List.mem_map_of_mem (f := Import.line) hi)
  refine ⟨i, hi, qualifier, used, a ++ c, e ++ b, ?_⟩
  have some : i.used.isEmpty = false := by
    cases names : i.used with
    | nil => simp [names] at used
    | cons _ _ => rfl
  rw [Import.line, some] at lines
  rw [importLines, lines]
  simp [String.append_assoc]

/-! ## Bound references -/

/-- **A type of an import is bound just if some statement uses it under the name that the import
has then**, and every one is where the imports come first.  Each output imports what is bound. -/
theorem binds_iff_usedAs (text : String) (d : Document) (h : ofText text = .ok d) :
    (∀ r, d.RefersToImport r → (d.Binds r ↔ ∃ q, r.qualifier = some q
        ∧ ImportTable.UsedAs (importHistory (Source.statements text)) q r.localName))
    ∧ (ImportsFirst (Source.statements text) → ∀ r, d.RefersToImport r → d.Binds r)
    ∧ ∀ r, d.Binds r → ∀ config out,
        TypeScript.render d d.symbolTable config = .ok out
          ∨ Zod.render d d.symbolTable config = .ok out →
        ∃ i ∈ d.imports, r.qualifier = some i.name ∧ r.localName ∈ i.used
          ∧ ∃ before after, out = before
            ++ ("import \x7b " ++ ", ".intercalate i.used ++ " \x7d from \"" ++ i.directory ++ "/"
              ++ i.name ++ "\";\n") ++ after := by
  have distinct := nodup_importNames h
  have imports := (history_of_ofStatements h).1
  have bound : ∀ n q, d.Binds ⟨n, some q⟩
      ↔ ImportTable.UsedAs (importHistory (Source.statements text)) q n := fun n q => by
    rw [binds_iff_uses distinct, imports]
    exact ImportTable.uses_run_empty_iff _
  refine ⟨fun r refers => ?_, fun first r refers => ?_,
    fun r binds config out => exists_line_of_binds binds⟩
  · obtain ⟨q, -, qualifier⟩ := refers.qualifier
    obtain ⟨n, _⟩ := r
    obtain rfl := qualifier
    simp [bound]
  · obtain ⟨q, named, qualifier⟩ := refers.qualifier
    have read := refers.mem_refs
    obtain ⟨n, _⟩ := r
    obtain rfl := qualifier
    exact (bound n q).2 (usedAs_of_importsFirst first h read named)

/-- A document with one import, from which these types are in use, and a field with a type of it. -/
def withShared (used : List String) : Document where
  version := ""
  package := ""
  imports := [⟨"shared", ".", "shared.proto", used⟩]
  entries := [.message "A" [.field ⟨"b", ⟨"B", some "shared"⟩, 1, 0, false, false⟩]]
  services := []

theorem refersToImport_withShared (used : List String) :
    (withShared used).RefersToImport ⟨"B", some "shared"⟩ :=
  .inl ⟨0, 0, ⟨["A"], .message "A" [.field ⟨"b", ⟨"B", some "shared"⟩, 1, 0, false, false⟩]⟩,
    ⟨"b", ⟨"B", some "shared"⟩, 1, 0, false, false⟩, "B", rfl, rfl, rfl, by
      rw [field?_symbolTable]
      rfl⟩

/-- The type of an import that stands first is bound. -/
theorem binds_withShared_of_import_first :
    ofText "import \"shared.proto\"; message A \x7b shared.B b = 1; \x7d" = .ok (withShared ["B"])
      ∧ (withShared ["B"]).Binds ⟨"B", some "shared"⟩ := by
  have read : ofText "import \"shared.proto\"; message A \x7b shared.B b = 1; \x7d"
      = .ok (withShared ["B"]) := by decide +kernel
  have first : ImportsFirst
      (Source.statements "import \"shared.proto\"; message A \x7b shared.B b = 1; \x7d") := by
    decide +kernel
  exact ⟨read, (binds_iff_usedAs _ _ read).2.1 first _ (refersToImport_withShared ["B"])⟩

/-- **A type that is used before its import is not bound**: the output refers to it and imports
nothing. -/
theorem not_binds_withShared_of_used_before :
    ofText "message A \x7b shared.B b = 1; \x7d import \"shared.proto\";" = .ok (withShared [])
      ∧ (withShared []).RefersToImport ⟨"B", some "shared"⟩
      ∧ ¬ (withShared []).Binds ⟨"B", some "shared"⟩
      ∧ TypeScript.render (withShared []) (withShared []).symbolTable .default
        = .ok "\nexport interface A \x7b\n  b: B;\n\x7d\n" := by
  refine ⟨by decide +kernel, refersToImport_withShared [], ?_, by decide +kernel⟩
  rintro ⟨q, i, -, found, used⟩
  obtain ⟨hi, -⟩ := mem_of_import? found
  obtain rfl := List.mem_singleton.1 hi
  exact absurd used List.not_mem_nil

end Document

end ProtoSchema
