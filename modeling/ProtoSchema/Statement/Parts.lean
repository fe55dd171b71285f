import ProtoSchema.Document
import ProtoSchema.Text.Word
import ProtoSchema.Text.Numeral

/-!
# Statement/Parts — what the tokens of a statement say

Each kind of statement has a pattern of tokens.  A statement that does not follow the pattern of its
kind says nothing, and these functions answer nothing for it.
-/

namespace ProtoSchema

open Text

/-- The last token after the keyword. -/
def argument? : List String → Option String
  | _ :: ts => ts.getLast?
  | [] => none

/-- An option: its name after the keyword, and the last token as its value. -/
def Setting.ofTokens? : List String → Option Setting
  | _ :: name :: ts => some ⟨name, ts.getLastD name⟩
  | _ => none

/-! ## Fields -/

/-- The words that may stand in front of a field's type. -/
def isModifier (t : String) : Bool := t = "repeated" || t = "optional" || t = "required"

/-- A character that may start a name. -/
def startsName (c : Char) : Bool := c.isAlpha || c = '_'

/-- **A type as a field may write it**: an optional dot, then a name that starts with a letter of
the Latin alphabet or the underscore and goes on with word characters and dots. -/
def isTypeName (t : String) : Bool :=
  let cs := match t.toList with
    | '.' :: cs => cs
    | cs => cs
  match cs with
  | c :: cs => startsName c && cs.all fun d => isWordChar d || d = '.'
  | [] => false

/-- A field as its statement writes it, the type still a token. -/
structure FieldLine where
  name : String
  type : String
  number : Int
  repeated : Bool
  optional : Bool
deriving Repr, DecidableEq, Inhabited

/-- The tokens after a modifier, if there is one. -/
def dropModifier : List String → List String
  | t :: ts => if isModifier t then ts else t :: ts
  | [] => []

/-- **A field**: an optional modifier, type, name, equals sign and number; what follows is not
looked at. -/
def FieldLine.ofTokens? (ts : List String) : Option FieldLine :=
  match dropModifier ts with
  | type :: name :: "=" :: number :: _ =>
    if isTypeName type then
      (readInt number).map fun n =>
        ⟨name, type, n, ts.head? = some "repeated", ts.head? = some "optional"⟩
    else none
  | _ => none

/-- **A value of an enum**: name, equals sign and number; what follows is not looked at. -/
def EnumValue.ofTokens? : List String → Option EnumValue
  | name :: "=" :: number :: _ => (readInt number).map fun n => ⟨name, n⟩
  | _ => none

/-! ## Methods -/

/-- A method as its statement writes it, the types still tokens. -/
structure RpcLine where
  name : String
  argument : String
  result : String
deriving Repr, DecidableEq, Inhabited

/-- **A method**: keyword, name, argument type, `returns` and result type. -/
def RpcLine.ofTokens? : List String → Option RpcLine
  | _ :: name :: argument :: "returns" :: result :: _ => some ⟨name, argument, result⟩
  | _ => none

/-! ## Package annotations -/

/-- A character of a dotted package name. -/
def isPackageChar (c : Char) : Bool := isWordChar c || c = '.'

/-- **The package a comment annotates an import with**: the word `package`, an optional colon and a
dotted name. -/
def annotatedPackage? (comment : String) : Option String :=
  match "package".toList.isPrefixOf? (trimStart (comment.toList.drop 2)) with
  | none => none
  | some rest =>
    if rest.head?.any isWordChar then none
    else
      let rest := match trimStart rest with
        | ':' :: rest => trimStart rest
        | rest => rest
      match rest.takeWhile isPackageChar with
      | [] => none
      | name => some (String.ofList name)

end ProtoSchema
