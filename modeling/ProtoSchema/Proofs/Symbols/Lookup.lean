import Mathlib.Data.List.Basic
import ProtoSchema.Symbol.Table

/-!
# Proofs/Symbols/Lookup — what a symbol table answers

The table is a list of positions and meanings, one stretch for each declaration and each service.
Looking a position up gives the meaning of the field or method that stands there, and nothing for a
position where none stands (`field?_symbolTable`, `rpc?_symbolTable`).  So the table has one entry
for each such position (`mem_fieldPositions_iff`, `mem_rpcPositions_iff`), and without the positions
it is the meanings in order (`map_snd_fields`, `map_snd_rpcs`).
-/

namespace ProtoSchema

/-! ## Looking up positions -/

section Positions

variable {α β γ : Type}

theorem lookup_of_ne {l : List ((Nat × Nat) × β)} {key : Nat × Nat} (h : ∀ e ∈ l, key ≠ e.1) :
    l.lookup key = none :=
  List.lookup_eq_none_iff.2 fun e he => bne_iff_ne.2 (h e he)

/-- In stretches that are numbered one after the other, a position is looked up in the stretch that
has its number. -/
theorem lookup_stretches {g : α × Nat → List ((Nat × Nat) × β)}
    (numbered : ∀ a, ∀ e ∈ g a, e.1.1 = a.2) (l : List α) (n k place : Nat) :
    ((l.zipIdx n).flatMap g).lookup (n + k, place)
      = l[k]?.bind fun a => (g (a, n + k)).lookup (n + k, place) := by
  induction l generalizing n k with
  | nil => rfl
  | cons a l ih =>
    rw [List.zipIdx_cons, List.flatMap_cons, List.lookup_append]
    cases k with
    | zero =>
      have later : ((l.zipIdx (n + 1)).flatMap g).lookup (n + 0, place) = none := by
        refine lookup_of_ne fun e he same => ?_
        obtain ⟨b, hb, he⟩ := List.mem_flatMap.1 he
        have bound := (List.mem_zipIdx hb).1
        have number := numbered b e he
        have first : n = e.1.1 := congrArg Prod.fst same
        omega
      rw [later, Option.or_none]
      rfl
    | succ k =>
      have earlier : (g (a, n)).lookup (n + (k + 1), place) = none := by
        refine lookup_of_ne fun e he same => ?_
        have number := numbered (a, n) e he
        have first : n + (k + 1) = e.1.1 := congrArg Prod.fst same
        omega
      have shift : n + (k + 1) = (n + 1) + k := by omega
      rw [earlier, Option.none_or, List.getElem?_cons_succ, shift]
      exact ih (n + 1) k

/-- In one stretch, a place is looked up among those that stand for something. -/
theorem lookup_places (h : α → Option β) (v : β → γ) (id : Nat) (l : List α) (n k : Nat) :
    (((l.zipIdx n).filterMap fun p => (h p.1).map (p.2, ·)).map
      fun p => ((id, p.1), v p.2)).lookup (id, n + k) = (l[k]?.bind h).map v := by
  induction l generalizing n k with
  | nil => rfl
  | cons a l ih =>
    rw [List.zipIdx_cons]
    cases k with
    | zero =>
      have later : (((l.zipIdx (n + 1)).filterMap fun p => (h p.1).map (p.2, ·)).map
          fun p => ((id, p.1), v p.2)).lookup (id, n) = none := by
        refine lookup_of_ne fun e he same => ?_
        obtain ⟨q, hq, rfl⟩ := List.mem_map.1 he
        obtain ⟨p, hp, placed⟩ := List.mem_filterMap.1 hq
        obtain ⟨b, -, rfl⟩ := Option.map_eq_some_iff.1 placed
        have bound := (List.mem_zipIdx hp).1
        have second : n = p.2 := congrArg Prod.snd same
        omega
      cases stands : h a with
      | none =>
        rw [List.filterMap_cons_none (by rw [stands]; rfl), Nat.add_zero, later]
        simp [stands]
      | some b =>
        rw [List.filterMap_cons_some (b := (n, b)) (by rw [stands]; rfl)]
        simp [stands]
    | succ k =>
      have shift : n + (k + 1) = (n + 1) + k := by omega
      rw [List.getElem?_cons_succ, shift, ← ih (n + 1) k]
      cases stands : h a with
      | none => rw [List.filterMap_cons_none (by rw [stands]; rfl)]
      | some b =>
        have ne : ((id, (n + 1) + k) == (id, n)) = false := by
          refine beq_false_of_ne fun same => ?_
          have second : n + 1 + k = n := congrArg Prod.snd same
          omega
        rw [List.filterMap_cons_some (b := (n, b)) (by rw [stands]; rfl), List.map_cons,
          List.lookup_cons, ne]

/-- What is taken from a list with its place stands there. -/
theorem bind_of_mem_placed {taken : α → Option β} {l : List α} {placed : Nat × β}
    (h : placed ∈ l.zipIdx.filterMap fun p => (taken p.1).map (p.2, ·)) :
    l[placed.1]?.bind taken = some placed.2 := by
  obtain ⟨⟨a, place⟩, ha, placing⟩ := List.mem_filterMap.1 h
  obtain ⟨b, isTaken, rfl⟩ := Option.map_eq_some_iff.1 placing
  rw [List.mem_zipIdx_iff_getElem?.1 ha]
  exact isTaken

/-- What is taken from a list, without the places. -/
theorem map_snd_placed (taken : α → Option β) (l : List α) :
    (l.zipIdx.filterMap fun p => (taken p.1).map (p.2, ·)).map Prod.snd = l.filterMap taken := by
  conv => rhs; rw [← List.zipIdx_map_fst 0 l, List.filterMap_map]
  simp [List.map_filterMap, Function.comp_def]

/-- A position is looked up just if it has an entry. -/
theorem mem_positions_iff {l : List ((Nat × Nat) × β)} {key : Nat × Nat} :
    key ∈ l.map Prod.fst ↔ ∃ b, l.lookup key = some b := by
  rw [← Option.ne_none_iff_exists', Ne, List.lookup_eq_none_iff, List.mem_map]
  simp only [bne_iff_ne, ne_eq, not_forall, not_not, exists_prop]
  exact exists_congr fun e => and_congr_right fun _ => eq_comm

theorem pairwise_zipIdx_ne (l : List α) : l.zipIdx.Pairwise fun p q => p.2 ≠ q.2 := by
  rw [← List.pairwise_map, List.zipIdx_map_snd]
  exact List.nodup_range' 1

/-- In one stretch no position has two entries. -/
theorem nodup_places (h : α → Option β) (v : β → γ) (id : Nat) (l : List α) :
    (((l.zipIdx.filterMap fun p => (h p.1).map (p.2, ·)).map
      fun p => ((id, p.1), v p.2)).map Prod.fst).Nodup := by
  rw [List.map_map, List.Nodup, List.pairwise_map, List.pairwise_filterMap]
  refine (pairwise_zipIdx_ne l).imp fun {p q} ne a ha b hb same => ne ?_
  obtain ⟨x, -, rfl⟩ := Option.map_eq_some_iff.1 ha
  obtain ⟨y, -, rfl⟩ := Option.map_eq_some_iff.1 hb
  exact (Prod.ext_iff.1 same).2

/-- In stretches that are numbered one after the other no position has two entries. -/
theorem nodup_stretches {g : α × Nat → List ((Nat × Nat) × β)}
    (numbered : ∀ a, ∀ e ∈ g a, e.1.1 = a.2) (each : ∀ a, ((g a).map Prod.fst).Nodup)
    (l : List α) : ((l.zipIdx.flatMap g).map Prod.fst).Nodup := by
  rw [List.map_flatMap, List.Nodup, List.pairwise_flatMap]
  refine ⟨fun a _ => each a, (pairwise_zipIdx_ne l).imp fun {p q} ne a ha b hb same => ne ?_⟩
  obtain ⟨e, he, rfl⟩ := List.mem_map.1 ha
  obtain ⟨e', he', rfl⟩ := List.mem_map.1 hb
  rw [← numbered p e he, ← numbered q e' he', same]

/-- Without the positions, stretches are what stands for something in each. -/
theorem map_snd_stretches {δ : Type} (body : α → List β) (h : β → Option γ) (v : α → γ → δ)
    (l : List α) :
    (l.zipIdx.flatMap fun p => ((body p.1).zipIdx.filterMap fun q => (h q.1).map (q.2, ·)).map
      fun q => ((p.2, q.1), v p.1 q.2)).map Prod.snd
      = l.flatMap fun a => ((body a).filterMap h).map (v a) := by
  have each : ∀ p : α × Nat,
      (((body p.1).zipIdx.filterMap fun q => (h q.1).map (q.2, ·)).map
        fun q => ((p.2, q.1), v p.1 q.2)).map Prod.snd = ((body p.1).filterMap h).map (v p.1) :=
    fun p => by
      rw [← map_snd_placed h (body p.1), List.map_map, List.map_map]
      rfl
  rw [List.map_flatMap]
  simp only [each]
  conv_rhs => rw [← List.zipIdx_map_fst 0 l, List.flatMap_map]

end Positions

/-! ## Fields and methods -/

namespace Document

variable {d : Document}

theorem numbered_fieldTypes (names : Names) (a : Declared × Nat) :
    ∀ e ∈ names.fieldTypes a.2 a.1, e.1.1 = a.2 := by
  intro e he
  obtain ⟨p, -, rfl⟩ := List.mem_map.1 he
  rfl

theorem numbered_rpcTypes (names : Names) (a : Service × Nat) :
    ∀ e ∈ names.rpcTypes a.2 a.1, e.1.1 = a.2 := by
  intro e he
  obtain ⟨p, -, rfl⟩ := List.mem_map.1 he
  rfl

/-- **The table has the meaning of every field, and of nothing else**, by the field's place. -/
theorem field?_symbolTable (d : Document) (id place : Nat) :
    d.symbolTable.field? id place = (d.declared[id]?).bind fun decl =>
      (decl.declaration.body[place]?.bind Entry.field?).map fun f =>
        d.names.resolve decl.path f.type := by
  have stretch := lookup_stretches (numbered_fieldTypes d.names) d.declared 0 id place
  rw [Nat.zero_add] at stretch
  refine stretch.trans (Option.bind_congr fun decl _ => ?_)
  have places := lookup_places Entry.field? (fun f => d.names.resolve decl.path f.type) id
    decl.declaration.body 0 place
  rw [Nat.zero_add] at places
  exact places

/-- **The table has the meaning of every method's types, and of nothing else**, by the method's
place. -/
theorem rpc?_symbolTable (d : Document) (id place : Nat) :
    d.symbolTable.rpc? id place = (d.services[id]?).bind fun s =>
      (s.body[place]?.bind ServiceEntry.rpc?).map fun r =>
        ⟨d.names.resolve [] r.argument, d.names.resolve [] r.result⟩ := by
  have stretch := lookup_stretches (numbered_rpcTypes d.names) d.services 0 id place
  rw [Nat.zero_add] at stretch
  refine stretch.trans (Option.bind_congr fun s _ => ?_)
  have places := lookup_places ServiceEntry.rpc?
    (fun r => Signature.mk (d.names.resolve [] r.argument) (d.names.resolve [] r.result)) id
    s.body 0 place
  rw [Nat.zero_add] at places
  exact places

/-- The table has an entry for the position of each field of a message, and no other. -/
theorem mem_fieldPositions_iff {i j : Nat} :
    (i, j) ∈ d.symbolTable.fields.map Prod.fst
      ↔ ∃ path name body f, d.declared[i]? = some ⟨path, .message name body⟩
        ∧ body[j]? = some (.field f) := by
  rw [mem_positions_iff]
  change (∃ type, d.symbolTable.field? i j = some type) ↔ _
  simp only [field?_symbolTable, Option.bind_eq_some_iff, Option.map_eq_some_iff]
  constructor
  · rintro ⟨_, ⟨path, decl⟩, hdecl, f, ⟨e, he, isField⟩, -⟩
    cases decl with
    | enum decl => exact nomatch he
    | message name body =>
      cases e with
      | field g => exact ⟨path, name, body, g, hdecl, he⟩
      | setting _ | enum _ | message _ _ => exact nomatch isField
  · rintro ⟨path, name, body, f, hdecl, hf⟩
    exact ⟨_, _, hdecl, f, ⟨_, hf, rfl⟩, rfl⟩

/-- The table has an entry for the position of each method, and no other. -/
theorem mem_rpcPositions_iff {i j : Nat} :
    (i, j) ∈ d.symbolTable.rpcs.map Prod.fst
      ↔ ∃ s r, d.services[i]? = some s ∧ s.body[j]? = some (.rpc r) := by
  rw [mem_positions_iff]
  change (∃ types, d.symbolTable.rpc? i j = some types) ↔ _
  simp only [rpc?_symbolTable, Option.bind_eq_some_iff, Option.map_eq_some_iff]
  constructor
  · rintro ⟨_, s, hs, r, ⟨e, he, isRpc⟩, -⟩
    cases e with
    | rpc q => exact ⟨s, q, hs, he⟩
    | setting _ => exact nomatch isRpc
  · rintro ⟨s, r, hs, hr⟩
    exact ⟨_, s, hs, r, ⟨_, hr, rfl⟩, rfl⟩

/-- No position has two entries. -/
theorem nodup_fieldPositions (d : Document) : (d.symbolTable.fields.map Prod.fst).Nodup :=
  nodup_stretches (numbered_fieldTypes d.names)
    (fun a => nodup_places Entry.field? (fun f => d.names.resolve a.1.path f.type) a.2
      a.1.declaration.body) d.declared

/-- No position has two entries. -/
theorem nodup_rpcPositions (d : Document) : (d.symbolTable.rpcs.map Prod.fst).Nodup :=
  nodup_stretches (numbered_rpcTypes d.names)
    (fun a => nodup_places ServiceEntry.rpc?
      (fun r => Signature.mk (d.names.resolve [] r.argument) (d.names.resolve [] r.result)) a.2
      a.1.body) d.services

/-- The fields of each declaration have their meanings in the table, in order. -/
theorem map_snd_fields (d : Document) :
    d.symbolTable.fields.map Prod.snd = d.declared.flatMap fun decl =>
      (Entry.fields decl.declaration.body).map fun f => d.names.resolve decl.path f.type :=
  map_snd_stretches (fun decl : Declared => decl.declaration.body) Entry.field?
    (fun decl f => d.names.resolve decl.path f.type) d.declared

/-- The methods of each service have the meanings of their types in the table, in order. -/
theorem map_snd_rpcs (d : Document) :
    d.symbolTable.rpcs.map Prod.snd = d.services.flatMap fun s => s.rpcs.map fun r =>
      ⟨d.names.resolve [] r.argument, d.names.resolve [] r.result⟩ :=
  map_snd_stretches Service.body ServiceEntry.rpc?
    (fun _ r => Signature.mk (d.names.resolve [] r.argument) (d.names.resolve [] r.result))
    d.services

end Document

/-! ## Kinds of meanings -/

/-- A reference is an imported type just if its qualifier is the name of an import. -/
theorem Names.resolve_eq_imported_iff {names : Names} {scope : List String} {r : TypeRef}
    {name : String} :
    names.resolve scope r = .imported name
      ↔ name = r.localName ∧ ∃ q ∈ names.imports, r.qualifier = some q := by
  obtain ⟨localName, _ | q⟩ := r
  · simp only [resolve, reduceCtorEq, and_false, exists_false, iff_false]
    split
    · exact Resolved.noConfusion
    · split <;> exact Resolved.noConfusion
  · simp only [resolve, Option.some.injEq]
    split_ifs with named
    · simp [named, eq_comm]
    · simp [named]

end ProtoSchema
