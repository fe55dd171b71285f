import ProtoSchema.Config
import ProtoSchema.Json.Reader

/-!
# Config/Reader — a configuration from its JSON text

The text holds an object with the members `imports`, a list of strings, and `rpc_return_wrapper`, a
string with a hole or null.  Both may be missing, and other members are not looked at.
-/

namespace ProtoSchema

/-- What is wrong with a configuration. -/
inductive ConfigFault
  /-- The file is not there. -/
  | missing
  /-- The text is no JSON. -/
  | malformed
  /-- The value is no object. -/
  | notObject
  /-- The extra lines are no list of strings. -/
  | badImports
  /-- The wrapper is no string with a hole. -/
  | badWrapper
deriving Repr, DecidableEq, Inhabited

/-- **Why a configuration cannot be used**, and the path of its file. -/
structure ConfigError where
  fault : ConfigFault
  path : String
deriving Repr, DecidableEq, Inhabited

/-- The message of a configuration error. -/
def ConfigError.message (e : ConfigError) : String :=
  match e.fault with
  | .missing => "Config file '" ++ e.path ++ "' does not exist"
  | .malformed => "Config file '" ++ e.path ++ "' is not valid JSON"
  | .notObject => "Config file '" ++ e.path ++ "' must contain a JSON object"
  | .badImports => "'imports' in '" ++ e.path ++ "' must be a list of strings"
  | .badWrapper =>
    "'rpc_return_wrapper' in '" ++ e.path ++ "' must be a string containing '\x7b\x7d'"

namespace Config

/-- The extra lines that a member gives. -/
def importsOf : Option Json → Except ConfigFault (List String)
  | none => .ok []
  | some (.list items) => match Json.texts? items with
    | some lines => .ok lines
    | none => .error .badImports
  | some _ => .error .badImports

/-- The wrapper that a member gives. -/
def wrapperOf : Option Json → Except ConfigFault (Option String)
  | none => .ok none
  | some .null => .ok none
  | some (.text w) | some (.halfText w) =>
    if Text.occurs hole.toList w.toList then .ok (some w) else .error .badWrapper
  | some _ => .error .badWrapper

/-- A line of a member holds half a surrogate pair. -/
def halfInItems : Option Json → Bool
  | some (.list items) => items.any Json.isHalf
  | _ => false

/-- **The configuration of a JSON value.**  Of members with the same key the last counts. -/
def ofJson : Json → Except ConfigFault Config
  | .object members => do
    let lines := Json.lastMember "imports" members
    let wrapper := Json.lastMember "rpc_return_wrapper" members
    return ⟨← importsOf lines, ← wrapperOf wrapper, halfInItems lines, wrapper.any Json.isHalf⟩
  | _ => .error .notObject

end Config

end ProtoSchema
