import ProtoSchema.Document
import ProtoSchema.Statement
import ProtoSchema.Statement.Parts
import ProtoSchema.Proofs.Source.Normal
import ProtoSchema.Proofs.Text.Numeral

/-!
# Proofs/Document/Source — the canonical source of a document

A document is written with one construct on each line: its version and package unless they are
empty, its entries in order, then its services.  The lines of a body stand between the line that
opens it and the one that closes it, to any depth.  A document is *canonical* if its source can say
all of it: it has no imports, its names are identifiers, and no statement of it would be taken for
one of another kind.
-/

namespace ProtoSchema

open Text

/-! ## Lines -/

/-- A line of a source: words that a semicolon ends, words that open a body, or the end of one. -/
inductive SourceLine
  | ended (words : List String)
  | opening (words : List String)
  | closing
deriving Repr, DecidableEq

/-- The text of a line, a space between neighbouring words. -/
def SourceLine.text : SourceLine → String
  | ended ws => " ".intercalate ws ++ ";"
  | opening ws => " ".intercalate ws ++ " \x7b"
  | closing => "\x7d"

/-- The statement that the line makes. -/
def SourceLine.statement : SourceLine → String
  | ended ws => " ".intercalate ws
  | opening ws => " ".intercalate ws ++ " \x7b"
  | closing => "\x7d"

/-- A body of lines between the line that opens it and the one that closes it. -/
def SourceLine.block (head : List String) (body : List SourceLine) : List SourceLine :=
  .opening head :: (body ++ [.closing])

/-! ## Sources -/

def Setting.source (o : Setting) : SourceLine := .ended ["option", o.name, "=", o.value]

/-- The modifier of a field, if it has one. -/
def Field.modifier (f : Field) : List String :=
  if f.repeated then ["repeated"] else if f.optional then ["optional"] else []

def Field.source (f : Field) : SourceLine :=
  .ended (f.modifier ++ [f.type.dotted, f.name, "=", toString f.number])

def EnumValue.source (v : EnumValue) : SourceLine := .ended [v.name, "=", toString v.number]

def EnumEntry.source : EnumEntry → SourceLine
  | .value v => v.source
  | .setting o => o.source

def EnumDecl.source (d : EnumDecl) : List SourceLine :=
  SourceLine.block ["enum", d.name] (d.body.map EnumEntry.source)

mutual

/-- The lines of an entry. -/
def Entry.source : Entry → List SourceLine
  | .field f => [f.source]
  | .setting o => [o.source]
  | .enum d => d.source
  | .message name body => SourceLine.block ["message", name] (Entry.sourceOf body)

/-- The lines of a body, entry by entry. -/
def Entry.sourceOf : List Entry → List SourceLine
  | [] => []
  | e :: es => e.source ++ Entry.sourceOf es

end

def Rpc.source (r : Rpc) : SourceLine :=
  .ended ["rpc", r.name, "(" ++ r.argument.dotted ++ ")", "returns", "(" ++ r.result.dotted ++ ")"]

def ServiceEntry.source : ServiceEntry → SourceLine
  | .rpc r => r.source
  | .setting o => o.source

def Service.source (s : Service) : List SourceLine :=
  SourceLine.block ["service", s.name] (s.body.map ServiceEntry.source)

namespace Document

/-- The line of the version, unless it is empty. -/
def versionSource (d : Document) : List SourceLine :=
  if d.version = "" then [] else [.ended ["syntax", "=", "\"" ++ d.version ++ "\""]]

/-- The line of the package, unless it is empty. -/
def packageSource (d : Document) : List SourceLine :=
  if d.package = "" then [] else [.ended ["package", d.package]]

/-- The lines of a document. -/
def sourceLines (d : Document) : List SourceLine :=
  d.versionSource ++ d.packageSource ++ Entry.sourceOf d.entries
    ++ d.services.flatMap Service.source

/-- **The canonical source of a document.** -/
def source (d : Document) : String := String.join (d.sourceLines.map fun l => l.text ++ "\n")

end Document

/-! ## Canonical documents -/

/-- A character of a name: a letter of the Latin alphabet, a digit or the underscore. -/
def isNameChar (c : Char) : Bool := c.isAlphanum || c = '_'

/-- A name that starts with no digit. -/
def isNameOf : List Char → Bool
  | c :: cs => startsName c && cs.all isNameChar
  | [] => false

/-- **An identifier.** -/
def isIdentifier (s : String) : Bool := isNameOf s.toList

/-- A character of a literal: one of a name, or a dot. -/
def isLiteralChar (c : Char) : Bool := isNameChar c || c = '.'

/-- **A literal**: not empty, and of such characters only. -/
def isLiteral (s : String) : Bool := s ≠ "" && s.toList.all isLiteralChar

/-- **A plain word**: not empty, and without quotes and characters that mean something to the
reader. -/
def isPlain (s : String) : Bool :=
  s ≠ "" && s.toList.all fun c => Source.isBareChar c && !Source.isQuote c

/-- Identifiers with dots between them. -/
def isDottedName (s : String) : Bool := (s.toList.splitOn '.').all isNameOf

/-- A reference made of identifiers. -/
def TypeRef.isCanonical (r : TypeRef) : Bool :=
  isIdentifier r.localName && r.qualifier.all isDottedName

/-- A word that announces the kind of the statement it starts. -/
def isKeyword (t : String) : Bool := (StatementKind.ofKeyword? t).isSome

/-- The number has a decimal text that can be read. -/
def hasNumeral (n : Int) : Bool := digitCount n ≤ digitLimit

def Setting.isCanonical (o : Setting) : Bool := isLiteral o.name && isLiteral o.value

/-- A field with at most one modifier, its type no keyword and no modifier unless one stands before
it. -/
def Field.isCanonical (f : Field) : Bool :=
  isIdentifier f.name && f.type.isCanonical && hasNumeral f.number && !(f.repeated && f.optional)
    && (f.repeated || f.optional || !(isKeyword f.type.dotted || isModifier f.type.dotted))

def EnumValue.isCanonical (v : EnumValue) : Bool :=
  isIdentifier v.name && !isKeyword v.name && hasNumeral v.number

def EnumEntry.isCanonical : EnumEntry → Bool
  | .value v => v.isCanonical
  | .setting o => o.isCanonical

def EnumDecl.isCanonical (d : EnumDecl) : Bool :=
  isIdentifier d.name && d.body.all EnumEntry.isCanonical

/-- The order of each field of a body is its rank among them. -/
def Entry.isRanked (body : List Entry) : Bool :=
  (Entry.fields body).map Field.order = List.range (Entry.fields body).length

mutual

/-- An entry whose source can say all of it. -/
def Entry.isCanonical : Entry → Bool
  | .field f => f.isCanonical
  | .setting o => o.isCanonical
  | .enum d => d.isCanonical
  | .message name body => isIdentifier name && Entry.isRanked body && Entry.areCanonical body

/-- A body of such entries. -/
def Entry.areCanonical : List Entry → Bool
  | [] => true
  | e :: es => e.isCanonical && Entry.areCanonical es

end

/-- A type of a method; the word `stream` would be left out. -/
def TypeRef.isCanonicalInRpc (r : TypeRef) : Bool := r.isCanonical && r.dotted ≠ "stream"

def Rpc.isCanonical (r : Rpc) : Bool :=
  isIdentifier r.name && r.name ≠ "stream" && r.argument.isCanonicalInRpc
    && r.result.isCanonicalInRpc

def ServiceEntry.isCanonical : ServiceEntry → Bool
  | .rpc r => r.isCanonical
  | .setting o => o.isCanonical

def Service.isCanonical (s : Service) : Bool :=
  isIdentifier s.name && s.body.all ServiceEntry.isCanonical

/-- **A document whose source can say all of it.**  Fields stand in messages only. -/
def Document.isCanonical (d : Document) : Bool :=
  (d.version = "" || isPlain d.version) && (d.package = "" || isPlain d.package)
    && d.imports = [] && (Entry.fields d.entries).isEmpty && Entry.areCanonical d.entries
    && d.services.all Service.isCanonical

end ProtoSchema
