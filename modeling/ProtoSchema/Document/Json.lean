import ProtoSchema.Document
import ProtoSchema.Json.Printer

/-!
# Document/Json — a document as a JSON value

Every part of a document becomes an object with one member per piece of it, always in the same
order; entries start with a member that names their kind.
-/

namespace ProtoSchema

open Json (text int list object)

/-- A string, or null if there is none. -/
def Json.ofText? : Option String → Json
  | some s => text s
  | none => .null

/-- A reference to a type. -/
def TypeRef.toJson (r : TypeRef) : Json :=
  object [("local_name", text r.localName), ("qualifier", Json.ofText? r.qualifier)]

/-- An option. -/
def Setting.toJson (o : Setting) : Json :=
  object [("kind", text "option"), ("name", text o.name), ("value", text o.value)]

/-- A field. -/
def Field.toJson (f : Field) : Json :=
  object [("kind", text "field"), ("name", text f.name), ("type_ref", f.type.toJson),
    ("number", int f.number), ("declaration_order", int f.order), ("repeated", .bool f.repeated),
    ("optional", .bool f.optional)]

/-- A value of an enum. -/
def EnumValue.toJson (v : EnumValue) : Json :=
  object [("kind", text "enum_value"), ("name", text v.name), ("value", int v.number)]

/-- An entry of an enum. -/
def EnumEntry.toJson : EnumEntry → Json
  | .value v => v.toJson
  | .setting o => o.toJson

/-- An enum. -/
def EnumDecl.toJson (d : EnumDecl) : Json :=
  object [("kind", text "enum"), ("name", text d.name),
    ("body", list (d.body.map EnumEntry.toJson))]

mutual

/-- An entry of a message or a document. -/
def Entry.toJson : Entry → Json
  | .field f => f.toJson
  | .setting o => o.toJson
  | .enum d => d.toJson
  | .message name body =>
    object [("kind", text "message"), ("name", text name), ("body", list (Entry.toJsonList body))]

/-- The entries of a body. -/
def Entry.toJsonList : List Entry → List Json
  | [] => []
  | e :: es => e.toJson :: Entry.toJsonList es

end

/-- A method. -/
def Rpc.toJson (r : Rpc) : Json :=
  object [("kind", text "rpc"), ("name", text r.name), ("argument", r.argument.toJson),
    ("return_type", r.result.toJson)]

/-- An entry of a service. -/
def ServiceEntry.toJson : ServiceEntry → Json
  | .rpc r => r.toJson
  | .setting o => o.toJson

/-- A service. -/
def Service.toJson (s : Service) : Json :=
  object [("name", text s.name), ("methods", list (s.body.map ServiceEntry.toJson))]

/-- An import. -/
def Import.toJson (i : Import) : Json :=
  object [("logical_name", text i.name), ("directory_path", text i.directory),
    ("raw_import_path", text i.path), ("referenced_type_names", list (i.used.map text))]

/-- **A document as a JSON value.** -/
def Document.toJson (d : Document) : Json :=
  object [("syntax", text d.version), ("package", text d.package),
    ("imports", list (d.imports.map Import.toJson)),
    ("top_level", list (Entry.toJsonList d.entries)),
    ("services", list (d.services.map Service.toJson))]

/-- The text of a document's JSON value, unless a number in it has too many digits. -/
def Document.dump (d : Document) : Option String := d.toJson.print

end ProtoSchema
