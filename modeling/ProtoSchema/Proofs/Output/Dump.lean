import ProtoSchema.Document.Json
import ProtoSchema.Proofs.Output.Blocks
import ProtoSchema.Session

/-!
# Proofs/Output/Dump — a document that is dumped has an output

The dump of a document prints every number in it, and the output only some of them.  So a document
whose dump has a text can be written as well (`Document.writable_of_dump`).
-/

namespace ProtoSchema

namespace Json

/-- **The value has a text**, at some depth. -/
def Prints (j : Json) : Prop := ∃ depth t, j.printAt depth = some t

theorem prints_of_printItems {depth : Nat} : ∀ {js : List Json} {ts : List (List Char)},
    printItems depth js = some ts → ∀ j ∈ js, j.Prints
  | [], _, _ => List.forall_mem_nil _
  | j :: js, ts, h => by
      obtain ⟨t, first, rest⟩ := Option.bind_eq_some_iff.1 h
      obtain ⟨ts, others, -⟩ := Option.bind_eq_some_iff.1 rest
      exact List.forall_mem_cons.2 ⟨⟨depth, t, first⟩, prints_of_printItems others⟩

theorem prints_of_printMembers {depth : Nat} : ∀ {ms : List (String × Json)}
    {ts : List (List Char)}, printMembers depth ms = some ts → ∀ m ∈ ms, m.2.Prints
  | [], _, _ => List.forall_mem_nil _
  | (key, j) :: ms, ts, h => by
      obtain ⟨t, first, rest⟩ := Option.bind_eq_some_iff.1 h
      obtain ⟨ts, others, -⟩ := Option.bind_eq_some_iff.1 rest
      exact List.forall_mem_cons.2 ⟨⟨depth, t, first⟩, prints_of_printMembers others⟩

/-- The items of a list that has a text have texts, -/
theorem Prints.item {js : List Json} (h : (list js).Prints) {j : Json} (mem : j ∈ js) :
    j.Prints := by
  obtain ⟨depth, t, printed⟩ := h
  obtain ⟨ts, items, -⟩ := Option.map_eq_some_iff.1 printed
  exact prints_of_printItems items j mem

/-- and so have the members of an object. -/
theorem Prints.member {ms : List (String × Json)} (h : (object ms).Prints) {k : String}
    {j : Json} (mem : (k, j) ∈ ms) : j.Prints := by
  obtain ⟨depth, t, printed⟩ := h
  obtain ⟨ts, members, -⟩ := Option.map_eq_some_iff.1 printed
  exact prints_of_printMembers members _ mem

theorem Prints.writable {v : EnumValue} (h : (int v.number).Prints) : v.Writable := by
  obtain ⟨depth, t, printed⟩ := h
  rw [printAt, Option.map_eq_some_iff] at printed
  obtain ⟨s, number, -⟩ := printed
  rw [Text.printInt] at number
  split_ifs at number with writable
  exact writable

end Json

open Json

/-! ## The numbers of a document -/

theorem EnumDecl.writable_of_prints {d : EnumDecl} (h : d.toJson.Prints) :
    ∀ v ∈ d.values, v.Writable := by
  intro v mem
  obtain ⟨e, there, value⟩ := List.mem_filterMap.1 mem
  cases e with
  | setting o => exact nomatch value
  | value v' =>
    obtain rfl := Option.some.inj value
    have body : (list (d.body.map EnumEntry.toJson)).Prints := h.member (k := "body") (by simp)
    have entry : v'.toJson.Prints := body.item (List.mem_map_of_mem there)
    exact Prints.writable (entry.member (k := "value") (by simp))

mutual

theorem Entry.writable_of_prints : ∀ {e : Entry} {parent : List String}, e.toJson.Prints →
    ∀ m ∈ e.declared parent, ∀ v ∈ m.declaration.members, v.Writable
  | .field _, _, _, m, mem => by simp [Entry.declared] at mem
  | .setting _, _, _, m, mem => by simp [Entry.declared] at mem
  | .enum d, parent, h, m, mem => by
      rw [Entry.declared, List.mem_singleton] at mem
      rw [Entry.toJson] at h
      exact mem ▸ EnumDecl.writable_of_prints h
  | .message name body, parent, h, m, mem => by
      rw [Entry.declared] at mem
      rw [Entry.toJson] at h
      have items : (list (Entry.toJsonList body)).Prints := h.member (k := "body") (by simp)
      rcases List.mem_cons.1 mem with rfl | mem
      · exact List.forall_mem_nil _
      · exact Entry.writable_of_prints_list (fun j hj => items.item hj) m mem

theorem Entry.writable_of_prints_list : ∀ {es : List Entry} {parent : List String},
    (∀ j ∈ Entry.toJsonList es, j.Prints) →
      ∀ m ∈ declaredIn parent es, ∀ v ∈ m.declaration.members, v.Writable
  | [], _, _, m, mem => by simp [declaredIn] at mem
  | e :: es, parent, h, m, mem => by
      rw [Entry.toJsonList, List.forall_mem_cons] at h
      rw [declaredIn, List.mem_append] at mem
      rcases mem with mem | mem
      · exact Entry.writable_of_prints h.1 m mem
      · exact Entry.writable_of_prints_list h.2 m mem

end

namespace Document

/-- **A document whose dump has a text can be written.** -/
theorem writable_of_dump {d : Document} {text : String} (h : d.dump = some text) :
    d.Writable := by
  obtain ⟨cs, printed, -⟩ := Option.map_eq_some_iff.1 h
  have prints : d.toJson.Prints := ⟨0, cs, printed⟩
  have entries : (list (Entry.toJsonList d.entries)).Prints :=
    prints.member (k := "top_level") (by simp)
  exact Entry.writable_of_prints_list fun j hj => entries.item hj

end Document

/-- **Either kind of output is a text just if every number can be written**, and else fails for
one that cannot. -/
theorem Target.failsUnless_render (target : Target) (d : Document) (config : Config) :
    FailsUnless d.Writable .numberTooLong (target.render d d.symbolTable config) := by
  cases target with
  | typeScript =>
    rw [render, Document.typeScript_render]
    exact (Document.emitsBlocks_written (FailsUnless.interfaceBlock d) _ _).imp_left
      fun ⟨writable, t, written, _⟩ => ⟨writable, t, written⟩
  | zod =>
    rw [render, Document.zod_render]
    exact (Document.emitsBlocks_written (FailsUnless.schemaBlock d) _ _).imp_left
      fun ⟨writable, t, written, _⟩ => ⟨writable, t, written⟩

end ProtoSchema
