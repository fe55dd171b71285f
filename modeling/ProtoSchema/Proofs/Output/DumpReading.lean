import ProtoSchema.Document.Json
import ProtoSchema.Proofs.Json.RoundTrip
import ProtoSchema.Proofs.Json.Same

/-!
# Proofs/Output/DumpReading — a dump determines its document

The JSON value of a document has integers and strings without halves of characters, so its text is
read back (`Json.parse_print`).  The value has a member for each piece of the document, and where
several kinds of parts may stand, one that names the kind; so the document is known from it, in
whatever order the members stand.  Both together say that a dump determines its document
(`Document.dump_determines`).
-/

namespace ProtoSchema

open Text Json

/-! ## Values that are given by their texts -/

theorem TypeRef.isExact_toJson (r : TypeRef) : r.toJson.isExact = true := by
  obtain ⟨name, _ | qualifier⟩ := r <;> rfl

theorem Json.allExact_map {α : Type} {f : α → Json} (h : ∀ a, (f a).isExact = true) (l : List α) :
    allExact (l.map f) = true := by
  induction l with
  | nil => rfl
  | cons a l ih => exact Bool.and_eq_true_iff.2 ⟨h a, ih⟩

theorem EnumEntry.isExact_toJson (e : EnumEntry) : e.toJson.isExact = true := by
  cases e <;> rfl

theorem EnumDecl.isExact_toJson (d : EnumDecl) : d.toJson.isExact = true := by
  simp [toJson, isExact, membersExact, allExact_map EnumEntry.isExact_toJson d.body]

mutual

theorem Entry.isExact_toJson : ∀ e : Entry, e.toJson.isExact = true
  | .field f => by
      simp [Entry.toJson, Field.toJson, isExact, membersExact, f.type.isExact_toJson]
  | .setting _ => rfl
  | .enum d => d.isExact_toJson
  | .message name body => by
      simp [Entry.toJson, isExact, membersExact, Entry.allExact_toJsonList body]

theorem Entry.allExact_toJsonList : ∀ es : List Entry, allExact (Entry.toJsonList es) = true
  | [] => rfl
  | e :: es => Bool.and_eq_true_iff.2 ⟨Entry.isExact_toJson e, Entry.allExact_toJsonList es⟩

end

theorem ServiceEntry.isExact_toJson (e : ServiceEntry) : e.toJson.isExact = true := by
  cases e with
  | setting o => rfl
  | rpc r => simp [toJson, Rpc.toJson, isExact, membersExact, TypeRef.isExact_toJson]

theorem Service.isExact_toJson (s : Service) : s.toJson.isExact = true := by
  simp [toJson, isExact, membersExact, allExact_map ServiceEntry.isExact_toJson s.body]

theorem Import.isExact_toJson (i : Import) : i.toJson.isExact = true := by
  have used := allExact_map (fun _ => rfl : ∀ s, (text s).isExact = true) i.used
  simp [toJson, isExact, membersExact, used]

/-- **The value of a document** is given by its text. -/
theorem Document.isExact_toJson (d : Document) : d.toJson.isExact = true := by
  simp [toJson, isExact, membersExact, allExact_map Import.isExact_toJson d.imports,
    Entry.allExact_toJsonList d.entries, allExact_map Service.isExact_toJson d.services]

/-! ## The integers of a document -/

mutual

/-- The integers in an entry: the numbers and places of fields, and the values of enums. -/
def Entry.integers : Entry → List Int
  | .field f => [f.number, f.order]
  | .setting _ => []
  | .enum d => d.values.map EnumValue.number
  | .message _ body => Entry.integersOf body

/-- The integers in a body, at any depth. -/
def Entry.integersOf : List Entry → List Int
  | [] => []
  | e :: es => e.integers ++ Entry.integersOf es

end

/-- **The integers in a document**, at any depth. -/
def Document.integers (d : Document) : List Int := Entry.integersOf d.entries

theorem TypeRef.integers_toJson (r : TypeRef) : r.toJson.integers = [] := by
  obtain ⟨name, _ | qualifier⟩ := r <;> rfl

/-- Values without integers hold none together. -/
theorem Json.integersOf_map {α : Type} {f : α → Json} (h : ∀ a, (f a).integers = [])
    (l : List α) : Json.integersOf (l.map f) = [] := by
  induction l with
  | nil => rfl
  | cons a l ih => rw [List.map_cons, Json.integersOf, h, ih, List.append_nil]

theorem EnumDecl.integers_toJson (d : EnumDecl) :
    d.toJson.integers = d.values.map EnumValue.number := by
  have body : Json.integersOf (d.body.map EnumEntry.toJson) = d.values.map EnumValue.number := by
    rw [EnumDecl.values]
    induction d.body with
    | nil => rfl
    | cons e es ih =>
      rw [List.map_cons, Json.integersOf, ih]
      cases e <;> rfl
  simp [toJson, Json.integers, integersOfMembers, body]

mutual

theorem Entry.integers_toJson : ∀ e : Entry, e.toJson.integers = e.integers
  | .field f => by
      simp [Entry.toJson, Field.toJson, Json.integers, integersOfMembers, Entry.integers,
        f.type.integers_toJson]
  | .setting _ => rfl
  | .enum d => d.integers_toJson
  | .message name body => by
      simp [Entry.toJson, Json.integers, integersOfMembers, Entry.integers,
        Entry.integersOf_toJsonList body]

theorem Entry.integersOf_toJsonList : ∀ es : List Entry,
    Json.integersOf (Entry.toJsonList es) = Entry.integersOf es
  | [] => rfl
  | e :: es => by
      rw [Entry.toJsonList, Json.integersOf, Entry.integersOf, Entry.integers_toJson e,
        Entry.integersOf_toJsonList es]

end

theorem ServiceEntry.integers_toJson (e : ServiceEntry) : e.toJson.integers = [] := by
  cases e with
  | setting o => rfl
  | rpc r => simp [toJson, Rpc.toJson, Json.integers, integersOfMembers, TypeRef.integers_toJson]

theorem Service.integers_toJson (s : Service) : s.toJson.integers = [] := by
  simp [toJson, Json.integers, integersOfMembers,
    integersOf_map ServiceEntry.integers_toJson s.body]

theorem Import.integers_toJson (i : Import) : i.toJson.integers = [] := by
  have used := integersOf_map (fun _ => rfl : ∀ s, (text s).integers = []) i.used
  simp [toJson, Json.integers, integersOfMembers, used]

/-- **The integers in the value of a document are its own.** -/
theorem Document.integers_toJson (d : Document) : d.toJson.integers = d.integers := by
  simp [toJson, Json.integers, integersOfMembers, Document.integers,
    integersOf_map Import.integers_toJson d.imports,
    Entry.integersOf_toJsonList d.entries,
    integersOf_map Service.integers_toJson d.services]

/-! ## The parts of a document from their values -/

attribute [ext] TypeRef Setting Field EnumValue EnumDecl Rpc Service Import Document

theorem Json.Same.ofText?_eq {a b : Option String} (h : Same (ofText? a) (ofText? b)) : a = b := by
  cases a with
  | none =>
    cases b with
    | none => rfl
    | some _ => exact nomatch h
  | some a =>
    cases b with
    | none => exact nomatch h
    | some b => rw [h.text_eq]

theorem TypeRef.eq_of_same {a b : TypeRef} (h : Same a.toJson b.toJson) : a = b := by
  have name := (h.member "local_name" rfl rfl).text_eq
  have qualifier := (h.member "qualifier" rfl rfl).ofText?_eq
  exact TypeRef.ext name qualifier

theorem Setting.eq_of_same {a b : Setting} (h : Same a.toJson b.toJson) : a = b := by
  have name := (h.member "name" rfl rfl).text_eq
  have value := (h.member "value" rfl rfl).text_eq
  exact Setting.ext name value

theorem Field.eq_of_same {a b : Field} (h : Same a.toJson b.toJson) : a = b := by
  have name := (h.member "name" rfl rfl).text_eq
  have type := TypeRef.eq_of_same (h.member "type_ref" rfl rfl)
  have number := (h.member "number" rfl rfl).int_eq
  have order := Int.ofNat.inj (h.member "declaration_order" rfl rfl).int_eq
  have repeated := (h.member "repeated" rfl rfl).bool_eq
  have optional := (h.member "optional" rfl rfl).bool_eq
  exact Field.ext name type number order repeated optional

theorem EnumValue.eq_of_same {a b : EnumValue} (h : Same a.toJson b.toJson) : a = b := by
  have name := (h.member "name" rfl rfl).text_eq
  have number := (h.member "value" rfl rfl).int_eq
  exact EnumValue.ext name number

theorem EnumEntry.eq_of_same {a b : EnumEntry} (h : Same a.toJson b.toJson) : a = b := by
  cases a with
  | value v =>
    cases b with
    | value w => rw [EnumValue.eq_of_same h]
    | setting o => exact absurd (h.member "kind" rfl rfl).text_eq (by decide)
  | setting o =>
    cases b with
    | value w => exact absurd (h.member "kind" rfl rfl).text_eq (by decide)
    | setting p => rw [Setting.eq_of_same h]

theorem EnumDecl.eq_of_same {a b : EnumDecl} (h : Same a.toJson b.toJson) : a = b := by
  have name := (h.member "name" rfl rfl).text_eq
  have body := Same.eq_of_map EnumEntry.eq_of_same (h.member "body" rfl rfl)
  exact EnumDecl.ext name body

/-- What the value of an entry names as its kind. -/
def Entry.kindName : Entry → String
  | .field _ => "field"
  | .setting _ => "option"
  | .enum _ => "enum"
  | .message _ _ => "message"

/-- **The value of an entry tells its kind.** -/
theorem Entry.kindName_eq_of_same {e f : Entry} (h : Same e.toJson f.toJson) :
    e.kindName = f.kindName := by
  cases e <;> cases f <;> exact (h.member "kind" rfl rfl).text_eq

mutual

theorem Entry.eq_of_same : ∀ {e f : Entry}, Same e.toJson f.toJson → e = f
  | .field f, .field g, h => by rw [Field.eq_of_same h]
  | .setting o, .setting p, h => by rw [Setting.eq_of_same h]
  | .enum d, .enum e, h => by rw [EnumDecl.eq_of_same h]
  | .message n es, .message m fs, h => by
      have name := (h.member "name" rfl rfl).text_eq
      have body := Entry.eq_of_same_list (h.member "body" rfl rfl).items
      rw [name, body]
  | .field _, .setting _, h | .field _, .enum _, h | .field _, .message _ _, h
  | .setting _, .field _, h | .setting _, .enum _, h | .setting _, .message _ _, h
  | .enum _, .field _, h | .enum _, .setting _, h | .enum _, .message _ _, h
  | .message _ _, .field _, h | .message _ _, .setting _, h | .message _ _, .enum _, h =>
      absurd (Entry.kindName_eq_of_same h) (by simp [Entry.kindName])

theorem Entry.eq_of_same_list : ∀ {es fs : List Entry},
    List.Forall₂ Same (Entry.toJsonList es) (Entry.toJsonList fs) → es = fs
  | [], [], _ => rfl
  | e :: es, f :: fs, .cons first others => by
      rw [Entry.eq_of_same first, Entry.eq_of_same_list others]

end

theorem Rpc.eq_of_same {a b : Rpc} (h : Same a.toJson b.toJson) : a = b := by
  have name := (h.member "name" rfl rfl).text_eq
  have argument := TypeRef.eq_of_same (h.member "argument" rfl rfl)
  have result := TypeRef.eq_of_same (h.member "return_type" rfl rfl)
  exact Rpc.ext name argument result

theorem ServiceEntry.eq_of_same {a b : ServiceEntry} (h : Same a.toJson b.toJson) : a = b := by
  cases a with
  | rpc r =>
    cases b with
    | rpc r' => rw [Rpc.eq_of_same h]
    | setting o => exact absurd (h.member "kind" rfl rfl).text_eq (by decide)
  | setting o =>
    cases b with
    | rpc r => exact absurd (h.member "kind" rfl rfl).text_eq (by decide)
    | setting p => rw [Setting.eq_of_same h]

theorem Service.eq_of_same {a b : Service} (h : Same a.toJson b.toJson) : a = b := by
  have name := (h.member "name" rfl rfl).text_eq
  have body := Same.eq_of_map ServiceEntry.eq_of_same (h.member "methods" rfl rfl)
  exact Service.ext name body

theorem Import.eq_of_same {a b : Import} (h : Same a.toJson b.toJson) : a = b := by
  have name := (h.member "logical_name" rfl rfl).text_eq
  have directory := (h.member "directory_path" rfl rfl).text_eq
  have path := (h.member "raw_import_path" rfl rfl).text_eq
  have used := Same.eq_of_map Same.text_eq (h.member "referenced_type_names" rfl rfl)
  exact Import.ext name directory path used

namespace Document

/-- **A document is known from its value.** -/
theorem eq_of_same {d e : Document} (h : Same d.toJson e.toJson) : d = e := by
  have version := (h.member "syntax" rfl rfl).text_eq
  have package := (h.member "package" rfl rfl).text_eq
  have imports := Same.eq_of_map Import.eq_of_same (h.member "imports" rfl rfl)
  have entries := Entry.eq_of_same_list (h.member "top_level" rfl rfl).items
  have services := Same.eq_of_map Service.eq_of_same (h.member "services" rfl rfl)
  exact Document.ext version package imports entries services

/-- **A dump determines its document.**  If no integer in a document is too long, its dump has a
text, and this text is parsed as the value of the document.  Two documents with the same value, in
whatever order its members stand, are equal, and so are two with the same dump. -/
theorem dump_determines (d e : Document) :
    ((∀ n ∈ d.integers, digitCount n ≤ digitLimit) →
        ∃ s, d.dump = some s ∧ Json.parse s = .ok d.toJson)
      ∧ (Same d.toJson e.toJson ↔ d = e)
      ∧ (∀ s, d.dump = some s → e.dump = some s → d = e) := by
  refine ⟨fun short => ?_, ⟨eq_of_same, ?_⟩, fun s hd he => ?_⟩
  · obtain ⟨s, printed⟩ := exists_print (d.integers_toJson ▸ short)
    exact ⟨s, printed, parse_print d.isExact_toJson printed⟩
  · rintro rfl
    exact .refl _
  · have read := parse_print d.isExact_toJson hd
    have same : d.toJson = e.toJson :=
      Except.ok.inj (read.symm.trans (parse_print e.isExact_toJson he))
    exact eq_of_same (same ▸ .refl _)

/-- A document with characters that are escaped, one of them by a surrogate pair. -/
def escaped : Document where
  version := "\"\\\t"
  package := "é𝄞\x7f"
  imports := [⟨"", ".", ".proto", []⟩]
  entries := [.message "𝄞" [.field ⟨"a", ⟨"b", none⟩, -1, 0, true, false⟩]]
  services := []

/-- Its dump is read back. -/
theorem dump_escaped : ∃ s, escaped.dump = some s ∧ Json.parse s = .ok escaped.toJson :=
  (dump_determines escaped escaped).1 (by decide +kernel)

end Document

end ProtoSchema
