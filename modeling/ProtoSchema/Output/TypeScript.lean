import ProtoSchema.Config
import ProtoSchema.Output.Shape
import ProtoSchema.Text.Lowercase

/-!
# Output/TypeScript — enums and interfaces

An enum becomes an enum, a message an interface with its fields, and a service an interface with its
methods.
-/

namespace ProtoSchema.TypeScript

/-- A field of an interface. -/
def fieldLine (f : FieldShape) : String :=
  "  " ++ f.name ++ (if f.optional then "?" else "") ++ ": " ++ f.type.name
    ++ (if f.repeated then "[]" else "") ++ ";\n"

/-- An interface of the given lines. -/
def interfaceText (name : String) (lines : List String) : String :=
  "export interface " ++ name ++ " \x7b\n" ++ String.join lines ++ "\x7d\n"

/-- What is written for a shape. -/
def shapeText : Shape → Except OutputError String
  | .enum name members => do
    return "export enum " ++ name ++ " \x7b\n" ++ (← memberLines members) ++ "\x7d\n"
  | .record name fields => return interfaceText name (fields.map fieldLine)

/-- The line of a method. -/
def methodLine (config : Config) (r : Rpc) (types : Signature) : String :=
  "  " ++ Text.lowerFirst r.name ++ "(data:" ++ types.argument.name ++ "):"
    ++ config.wrapResult types.result.name ++ ";\n"

/-- What is written for the service with number `id`. -/
def serviceText (table : SymbolTable) (config : Config) (id : Nat) (s : Service) :
    Except OutputError String := do
  let lines ← (placedRpcs s.body).mapM fun (place, r) => do
    return methodLine config r (← orError .missingType (table.rpc? id place))
  return interfaceText s.name lines

/-- **The declarations of a document**, its types taken from a symbol table. -/
def render (d : Document) (table : SymbolTable) (config : Config) : Except OutputError String := do
  let shapes ← table.shapes d
  let services ← d.services.zipIdx.mapM fun (s, id) => serviceText table config id s
  let texts ← shapes.mapM shapeText
  return String.join config.headerLines ++ d.importLines ++ "\n" ++ String.join texts
    ++ String.join services

end ProtoSchema.TypeScript
