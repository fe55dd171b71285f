import ProtoSchema.Proofs.Output.Blocks

/-!
# Proofs/Output/WithoutSettings — options do not reach the output

Leaving the options of a document out moves its fields and methods to other places, and so to other
positions in the symbol table.  But shapes and services are written from the declarations alone
(`Document.shapes_symbolTable`, `Document.services_symbolTable`), and these stay what they are when
options are left out (`declaredIn_withoutSettings`).  So neither kind of output changes
(`Document.render_withoutSettings`).
-/

namespace ProtoSchema

/-! ## Leaving options out -/

/-- The option that an entry of an enum is. -/
def EnumEntry.setting? : EnumEntry → Option Setting
  | .value _ => none
  | .setting o => some o

/-- The option that an entry of a service is. -/
def ServiceEntry.setting? : ServiceEntry → Option Setting
  | .rpc _ => none
  | .setting o => some o

/-- The enum without its options. -/
def EnumDecl.withoutSettings (d : EnumDecl) : EnumDecl :=
  { d with body := d.body.filter (·.setting?.isNone) }

/-- The service without its options. -/
def Service.withoutSettings (s : Service) : Service :=
  { s with body := s.body.filter (·.setting?.isNone) }

mutual

/-- What is left of an entry: nothing of an option. -/
def Entry.withoutSettings : Entry → List Entry
  | .field f => [.field f]
  | .setting _ => []
  | .enum d => [.enum d.withoutSettings]
  | .message name body => [.message name (Entry.bodyWithoutSettings body)]

/-- What is left of a body. -/
def Entry.bodyWithoutSettings : List Entry → List Entry
  | [] => []
  | e :: es => e.withoutSettings ++ Entry.bodyWithoutSettings es

end

/-- **The document without its options**, at any depth. -/
def Document.withoutSettings (d : Document) : Document :=
  { d with
    entries := Entry.bodyWithoutSettings d.entries
    services := d.services.map Service.withoutSettings }

mutual

/-- The options of an entry, at any depth. -/
def Entry.settings : Entry → List Setting
  | .field _ => []
  | .setting o => [o]
  | .enum d => d.body.filterMap EnumEntry.setting?
  | .message _ body => Entry.settingsOf body

/-- The options of a body, at any depth. -/
def Entry.settingsOf : List Entry → List Setting
  | [] => []
  | e :: es => e.settings ++ Entry.settingsOf es

end

/-- **The options of a document**, at any depth. -/
def Document.settings (d : Document) : List Setting :=
  Entry.settingsOf d.entries
    ++ d.services.flatMap fun s => s.body.filterMap ServiceEntry.setting?

/-! ## Nothing else is left out -/

theorem EnumDecl.values_withoutSettings (d : EnumDecl) : d.withoutSettings.values = d.values := by
  rw [values, withoutSettings, List.filterMap_filter]
  refine List.filterMap_congr fun e _ => ?_
  cases e <;> rfl

theorem Service.rpcs_withoutSettings (s : Service) : s.withoutSettings.rpcs = s.rpcs := by
  rw [rpcs, withoutSettings, List.filterMap_filter]
  refine List.filterMap_congr fun e _ => ?_
  cases e <;> rfl

theorem Entry.fields_bodyWithoutSettings (body : List Entry) :
    Entry.fields (Entry.bodyWithoutSettings body) = Entry.fields body := by
  induction body with
  | nil => rfl
  | cons e es ih =>
    have first : Entry.fields e.withoutSettings = Entry.fields [e] := by cases e <;> rfl
    calc Entry.fields (e.withoutSettings ++ Entry.bodyWithoutSettings es)
        = Entry.fields e.withoutSettings ++ Entry.fields (Entry.bodyWithoutSettings es) :=
          List.filterMap_append
      _ = Entry.fields [e] ++ Entry.fields es := by rw [first, ih]
      _ = Entry.fields (e :: es) := List.filterMap_append.symm

/-- The declaration without the options in it. -/
def Declared.withoutSettings (m : Declared) : Declared where
  path := m.path
  declaration := match m.declaration with
    | .message name body => .message name (Entry.bodyWithoutSettings body)
    | .enum d => .enum d.withoutSettings

theorem declaredIn_append (parent : List String) : ∀ es fs : List Entry,
    declaredIn parent (es ++ fs) = declaredIn parent es ++ declaredIn parent fs
  | [], _ => rfl
  | e :: es, fs => by
      rw [List.cons_append, declaredIn, declaredIn, declaredIn_append, List.append_assoc]

theorem postDeclaredIn_append (parent : List String) : ∀ (n : ℕ) (es fs : List Entry),
    postDeclaredIn n parent (es ++ fs)
      = postDeclaredIn n parent es ++ postDeclaredIn (n + (declaredIn parent es).length) parent fs
  | _, [], _ => rfl
  | n, e :: es, fs => by
      rw [List.cons_append, postDeclaredIn, postDeclaredIn, declaredIn, postDeclaredIn_append,
        List.append_assoc, List.length_append, Nat.add_assoc]

mutual

theorem Entry.declaredIn_withoutSettings (parent : List String) : ∀ e : Entry,
    declaredIn parent e.withoutSettings = (e.declared parent).map Declared.withoutSettings
  | .field _ | .setting _ | .enum _ => rfl
  | .message name body => by
      rw [Entry.withoutSettings, declaredIn, Entry.declared,
        declaredIn_bodyWithoutSettings (parent ++ [name]) body]
      simp [declaredIn, Entry.declared, Declared.withoutSettings]

/-- **The same is declared**, but for the options in it. -/
theorem declaredIn_bodyWithoutSettings (parent : List String) : ∀ es : List Entry,
    declaredIn parent (Entry.bodyWithoutSettings es)
      = (declaredIn parent es).map Declared.withoutSettings
  | [] => rfl
  | e :: es => by
      rw [Entry.bodyWithoutSettings, declaredIn_append, declaredIn, List.map_append,
        Entry.declaredIn_withoutSettings parent e, declaredIn_bodyWithoutSettings parent es]

end

mutual

theorem Entry.postDeclaredIn_withoutSettings (n : ℕ) (parent : List String) : ∀ e : Entry,
    postDeclaredIn n parent e.withoutSettings
      = (e.postDeclared n parent).map (Prod.map Declared.withoutSettings id)
  | .field _ | .setting _ | .enum _ => rfl
  | .message name body => by
      rw [Entry.withoutSettings, postDeclaredIn, Entry.postDeclared, Entry.postDeclared,
        postDeclaredIn_bodyWithoutSettings (n + 1) (parent ++ [name]) body, List.map_append]
      exact List.append_nil _

/-- **The same is declared in post-order**, with the same numbers. -/
theorem postDeclaredIn_bodyWithoutSettings (n : ℕ) (parent : List String) :
    ∀ es : List Entry, postDeclaredIn n parent (Entry.bodyWithoutSettings es)
      = (postDeclaredIn n parent es).map (Prod.map Declared.withoutSettings id)
  | [] => rfl
  | e :: es => by
      have count : (declaredIn parent e.withoutSettings).length = (e.declared parent).length := by
        rw [Entry.declaredIn_withoutSettings, List.length_map]
      rw [Entry.bodyWithoutSettings, postDeclaredIn_append, count, postDeclaredIn, List.map_append,
        Entry.postDeclaredIn_withoutSettings n parent e,
        postDeclaredIn_bodyWithoutSettings _ parent es]

end

/-! ## No option is left -/

theorem Entry.settingsOf_append : ∀ es fs : List Entry,
    Entry.settingsOf (es ++ fs) = Entry.settingsOf es ++ Entry.settingsOf fs
  | [], _ => rfl
  | e :: es, fs => by
      rw [List.cons_append, Entry.settingsOf, Entry.settingsOf, settingsOf_append,
        List.append_assoc]

mutual

theorem Entry.settingsOf_withoutSettings :
    ∀ e : Entry, Entry.settingsOf e.withoutSettings = []
  | .field _ | .setting _ => rfl
  | .enum d => by
      simp [Entry.withoutSettings, Entry.settingsOf, Entry.settings, EnumDecl.withoutSettings]
  | .message name body => by
      simp [Entry.withoutSettings, Entry.settingsOf, Entry.settings,
        Entry.settingsOf_bodyWithoutSettings body]

theorem Entry.settingsOf_bodyWithoutSettings :
    ∀ body : List Entry, Entry.settingsOf (Entry.bodyWithoutSettings body) = []
  | [] => rfl
  | e :: es => by
      rw [Entry.bodyWithoutSettings, Entry.settingsOf_append, Entry.settingsOf_withoutSettings e,
        Entry.settingsOf_bodyWithoutSettings es, List.append_nil]

end

/-! ## The output -/

namespace Document

theorem settings_withoutSettings (d : Document) : d.withoutSettings.settings = [] := by
  have none : ∀ s ∈ d.services, s.withoutSettings.body.filterMap ServiceEntry.setting? = [] := by
    intro s _
    simp [Service.withoutSettings]
  rw [settings, withoutSettings, Entry.settingsOf_bodyWithoutSettings, List.nil_append,
    List.flatMap_map, List.flatMap_eq_nil_iff]
  exact none

/-- The references of the document may stand for the same names. -/
theorem names_withoutSettings (d : Document) : d.withoutSettings.names = d.names := by
  have flatNames (d : Document) :
      d.symbols.map Symbol.flatName = d.declared.map fun m => flatten m.path := by
    have firsts := congrArg (List.map fun m : Declared => flatten m.path)
      (List.zipIdx_map_fst 0 d.declared)
    rw [List.map_map] at firsts
    rw [symbols, List.map_map]
    exact firsts
  have same : d.withoutSettings.declared = d.declared.map Declared.withoutSettings :=
    declaredIn_bodyWithoutSettings [] d.entries
  rw [names, names, flatNames, flatNames, same, List.map_map]
  rfl

theorem shapeOf_withoutSettings (d : Document) (m : Declared) :
    d.withoutSettings.shapeOf m.withoutSettings = d.shapeOf m := by
  obtain ⟨path, decl⟩ := m
  cases decl with
  | enum decl => exact congrArg _ decl.values_withoutSettings
  | message name body =>
    have field : d.withoutSettings.fieldShape path = d.fieldShape path := by
      funext f
      rw [fieldShape, fieldShape, names_withoutSettings]
    change Shape.record _ ((Entry.fields (Entry.bodyWithoutSettings body)).map _) = _
    rw [Entry.fields_bodyWithoutSettings, Declared.withoutSettings, field]
    rfl

/-- **The same shapes are written**, in the same order. -/
theorem map_shapeOf_withoutSettings (d : Document) :
    d.withoutSettings.postDeclared.map d.withoutSettings.shapeOf
      = d.postDeclared.map d.shapeOf := by
  have same : d.withoutSettings.postDeclared = d.postDeclared.map Declared.withoutSettings := by
    rw [postDeclared, withoutSettings, postDeclaredIn_bodyWithoutSettings, postDeclared,
      List.map_map, List.map_map]
    rfl
  rw [same, List.map_map]
  exact List.map_congr_left fun m _ => shapeOf_withoutSettings d m

theorem written_withoutSettings (d : Document) (write : Shape → Except OutputError String)
    (front back : String) :
    d.withoutSettings.written write front back = d.written write front back := by
  rw [written, written, map_shapeOf_withoutSettings]

/-- **The same is written for a service.** -/
theorem serviceBlock_withoutSettings (d : Document) (config : Config) (s : Service) :
    d.withoutSettings.serviceBlock config s.withoutSettings = d.serviceBlock config s := by
  have line : d.withoutSettings.rpcLine config = d.rpcLine config := by
    funext r
    rw [rpcLine, rpcLine, signature, signature, names_withoutSettings]
  rw [serviceBlock, serviceBlock, Service.rpcs_withoutSettings, line]
  rfl

/-- **Options do not reach the output.**  Without its options, at any depth, a document has the same
interfaces and the same schemas, or none for the same reason, though its fields and methods are then
at other positions of the symbol table. -/
theorem render_withoutSettings (d : Document) (config : Config) :
    d.withoutSettings.settings = []
      ∧ TypeScript.render d.withoutSettings d.withoutSettings.symbolTable config
        = TypeScript.render d d.symbolTable config
      ∧ Zod.render d.withoutSettings d.withoutSettings.symbolTable config
        = Zod.render d d.symbolTable config := by
  have services : d.withoutSettings.services.map (d.withoutSettings.serviceBlock config)
      = d.services.map (d.serviceBlock config) := by
    rw [withoutSettings, List.map_map]
    exact List.map_congr_left fun s _ => serviceBlock_withoutSettings d config s
  refine ⟨settings_withoutSettings d, ?_, ?_⟩
  · rw [typeScript_render, typeScript_render, written_withoutSettings, services]
    rfl
  · rw [zod_render, zod_render, written_withoutSettings]
    rfl

end Document

end ProtoSchema
