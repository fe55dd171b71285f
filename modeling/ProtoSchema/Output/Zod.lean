import ProtoSchema.Config
import ProtoSchema.Output.Shape

/-!
# Output/Zod — validation schemas

An enum becomes a native enum with a schema of it, and a message an object schema; either is
followed by the type inferred from the schema.  Services have no schema.
-/

namespace ProtoSchema.Zod

/-- **The schema of a field.**  A scalar is a call of the library, another type the schema constant
of its name. -/
def expression (isScalar : Bool) (name : String) (repeated optional : Bool) : String :=
  let single := if isScalar then "z." ++ name ++ "()" else name
  let many := if repeated then "z.array(" ++ single ++ ")" else single
  if optional then many ++ ".optional()" else many

/-- The reference is a scalar. -/
def isScalar : Resolved → Bool
  | .scalar _ => true
  | _ => false

/-- A field of an object schema. -/
def fieldLine (f : FieldShape) : String :=
  "  " ++ f.name ++ ": " ++ expression (isScalar f.type) f.type.name f.repeated f.optional ++ ",\n"

/-- The schema of a shape. -/
def schemaText : Shape → Except OutputError String
  | .enum name members => do
    return "enum _" ++ name ++ "_ENUM \x7b\n" ++ (← memberLines members) ++ "\x7d\n"
      ++ "export const " ++ name ++ " = z.nativeEnum(_" ++ name ++ "_ENUM);\n"
  | .record name fields =>
    return "export const " ++ name ++ " = z.object(\x7b\n" ++ String.join (fields.map fieldLine)
      ++ "\x7d);\n"

/-- What is written for a shape: its schema and the type inferred from it. -/
def shapeText (s : Shape) : Except OutputError String := do
  return (← schemaText s) ++ "export type " ++ s.name ++ "_Type = z.infer<typeof " ++ s.name
    ++ ">;\n\n"

/-- **The schemas of a document**, its types taken from a symbol table. -/
def render (d : Document) (table : SymbolTable) (config : Config) : Except OutputError String := do
  let texts ← (← table.shapes d).mapM shapeText
  return "import \x7b z \x7d from \"zod\";\n" ++ String.join config.headerLines ++ d.importLines
    ++ "\n" ++ String.join texts

end ProtoSchema.Zod
