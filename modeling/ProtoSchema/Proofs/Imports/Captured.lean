import ProtoSchema.Output.TypeScript
import ProtoSchema.Proofs.Symbols.Scoping

/-!
# Proofs/Imports/Captured — imported types by the names of declarations

A type of an import keeps its own name in the output, where the declarations of the file stand by
their flat names.  The two meet just where the type is called as a message or enum at the top of the
file, or as the joined names of a nested one (`imported_ne_flatName_iff`).
-/

namespace ProtoSchema

namespace Document

/-! ## Imported types -/

/-- **A field of a message or a method of a service has this type.** -/
def Mentions (d : Document) (r : TypeRef) : Prop :=
  (∃ decl ∈ d.declared, ∃ f ∈ Entry.fields decl.declaration.body, f.type = r)
    ∨ ∃ s ∈ d.services, ∃ m ∈ s.rpcs, m.argument = r ∨ m.result = r

/-- **The reference has the name of an import for its qualifier.** -/
def Qualifies (d : Document) (r : TypeRef) : Prop := ∃ q ∈ d.importNames, r.qualifier = some q

/-- **The symbol table says of some type that it is the type of an import by this name.** -/
def ImportsAs (d : Document) (name : String) : Prop :=
  .imported name ∈ d.symbolTable.fields.map Prod.snd
    ∨ ∃ types ∈ d.symbolTable.rpcs.map Prod.snd,
      types.argument = .imported name ∨ types.result = .imported name

variable {d : Document} {name : String}

/-- An imported type keeps its own name. -/
theorem importsAs_iff :
    d.ImportsAs name ↔ ∃ r, d.Mentions r ∧ d.Qualifies r ∧ name = r.localName := by
  have imported : ∀ {scope r}, d.names.resolve scope r = .imported name
      ↔ name = r.localName ∧ d.Qualifies r := Names.resolve_eq_imported_iff
  rw [ImportsAs, map_snd_fields, map_snd_rpcs]
  constructor
  · rintro (field | ⟨types, rpc, type⟩)
    · obtain ⟨decl, hdecl, field⟩ := List.mem_flatMap.1 field
      obtain ⟨f, hf, type⟩ := List.mem_map.1 field
      obtain ⟨same, qualified⟩ := imported.1 type
      exact ⟨f.type, .inl ⟨decl, hdecl, f, hf, rfl⟩, qualified, same⟩
    · obtain ⟨s, hs, rpc⟩ := List.mem_flatMap.1 rpc
      obtain ⟨m, hm, rfl⟩ := List.mem_map.1 rpc
      rcases type with type | type
      · obtain ⟨same, qualified⟩ := imported.1 type
        exact ⟨m.argument, .inr ⟨s, hs, m, hm, .inl rfl⟩, qualified, same⟩
      · obtain ⟨same, qualified⟩ := imported.1 type
        exact ⟨m.result, .inr ⟨s, hs, m, hm, .inr rfl⟩, qualified, same⟩
  · rintro ⟨r, mentioned, qualified, same⟩
    have type : ∀ scope, d.names.resolve scope r = .imported name := fun scope =>
      imported.2 ⟨same, qualified⟩
    rcases mentioned with ⟨decl, hdecl, f, hf, rfl⟩ | ⟨s, hs, m, hm, of⟩
    · exact .inl (List.mem_flatMap.2 ⟨decl, hdecl, List.mem_map.2 ⟨f, hf, type decl.path⟩⟩)
    · refine .inr ⟨_, List.mem_flatMap.2 ⟨s, hs, List.mem_map.2 ⟨m, hm, rfl⟩⟩, ?_⟩
      rcases of with rfl | rfl
      · exact .inl (type [])
      · exact .inr (type [])

/-! ## Captured names -/

/-- **A nested declaration has this name when its path is joined**: the first name of the path, a
separator, and the flat name of what follows. -/
def DeclaresJoined (d : Document) (name : String) : Prop :=
  ∃ m p, p ≠ [] ∧ d.DeclaresAt (m :: p) ∧ name = m ++ flatSeparator ++ flatten p

theorem exists_flatName_iff : (∃ s ∈ d.symbolTable.symbols, name = s.flatName)
    ↔ d.DeclaresAt [name] ∨ d.DeclaresJoined name := by
  constructor
  · rintro ⟨s, hs, rfl⟩
    rw [flatName_of_mem_symbols hs]
    have ne := path_ne_nil hs
    match path : s.path with
    | [] => exact absurd path ne
    | [m] => exact .inl ⟨s, hs, path⟩
    | m :: k :: p => exact .inr ⟨m, k :: p, by simp, ⟨s, hs, path⟩, flatten_cons (by simp) m⟩
  · rintro (⟨s, hs, path⟩ | ⟨m, p, ne, ⟨s, hs, path⟩, rfl⟩)
    · exact ⟨s, hs, by rw [flatName_of_mem_symbols hs, path]; rfl⟩
    · exact ⟨s, hs, by rw [flatName_of_mem_symbols hs, path, flatten_cons ne]⟩

/-- **The imported types of a document have other names than its declarations just if none is called
as a declaration at its top or as the joined path of a nested one**; a name without separators is no
joined path. -/
theorem imported_ne_flatName_iff (d : Document) :
    ((∀ name, d.ImportsAs name → ∀ s ∈ d.symbolTable.symbols, name ≠ s.flatName)
      ↔ ∀ r, d.Mentions r → d.Qualifies r →
        ¬ d.DeclaresAt [r.localName] ∧ ¬ d.DeclaresJoined r.localName)
    ∧ ∀ name, ¬ flatSeparator.toList <:+: name.toList → ¬ d.DeclaresJoined name := by
  refine ⟨⟨fun apart r mentioned qualified => ?_, fun apart name imported s hs same => ?_⟩, ?_⟩
  · have other := apart _ (importsAs_iff.2 ⟨r, mentioned, qualified, rfl⟩)
    rw [← not_or, ← exists_flatName_iff]
    rintro ⟨s, hs, same⟩
    exact other s hs same
  · obtain ⟨r, mentioned, qualified, rfl⟩ := importsAs_iff.1 imported
    have captured := exists_flatName_iff.1 ⟨s, hs, same⟩
    obtain ⟨top, joined⟩ := apart r mentioned qualified
    exact captured.elim top joined
  · rintro _ free ⟨m, p, -, -, rfl⟩
    refine free ⟨m.toList, (flatten p).toList, ?_⟩
    rw [String.toList_append, String.toList_append]

/-- A document with a message that is called as a type of its import, and a field of that type. -/
def capturing : Document where
  version := ""
  package := ""
  imports := [⟨"u", ".", "u.proto", ["B"]⟩]
  entries := [.message "B" [], .message "A" [.field ⟨"b", ⟨"B", some "u"⟩, 1, 0, false, false⟩]]
  services := []

/-- **An imported type may be called as a message of the file**: the output imports the name and
declares it. -/
theorem imported_eq_flatName_of_capturing :
    ofText "import \"u.proto\"; message B \x7b \x7d message A \x7b u.B b = 1; \x7d" = .ok capturing
      ∧ capturing.ImportsAs "B" ∧ (∃ s ∈ capturing.symbolTable.symbols, "B" = s.flatName)
      ∧ TypeScript.render capturing capturing.symbolTable .default
        = .ok ("import \x7b B \x7d from \"./u\";\n\nexport interface B \x7b\n\x7d\n"
          ++ "export interface A \x7b\n  b: B;\n\x7d\n") := by
  refine ⟨by decide +kernel, .inl (by decide +kernel), ⟨⟨0, ["B"], "B", .message⟩, ?_, rfl⟩, ?_⟩
  · decide +kernel
  · decide +kernel

end Document

end ProtoSchema
