import ProtoSchema.Config.Reader
import ProtoSchema.Document.Json
import ProtoSchema.Document.Reader
import ProtoSchema.FilePath
import ProtoSchema.Host
import ProtoSchema.Output.TypeScript
import ProtoSchema.Output.Zod

/-!
# Session — converting the schema files of a folder

A session checks its folders, loads its configuration and converts its files one after the other.
The first file that cannot be converted ends it; what was written before stays, and nothing is
written for that file.  An output that takes half a surrogate pair from the configuration ends the
session as well, but only when its file was opened, and leaves the file empty.
-/

namespace ProtoSchema

/-! ## Requests and failures -/

/-- The two kinds of output. -/
inductive Target
  | typeScript
  | zod
deriving Repr, DecidableEq, Inhabited

namespace Target

/-- The target of a name. -/
def ofName? : String → Option Target
  | "ts" => some typeScript
  | "zod" => some zod
  | _ => none

/-- What the names of output files end with. -/
def suffix : Target → String
  | typeScript => ".ts"
  | zod => ".zod.ts"

/-- **The output of a document.** -/
def render : Target → Document → SymbolTable → Config → Except OutputError String
  | typeScript => TypeScript.render
  | zod => Zod.render

/-- The part of the program that reports a conversion. -/
def reporter : Target → String
  | typeScript => "protoc_ts.generator.ts_generator"
  | zod => "protoc_ts.generator.zod_generator"

end Target

/-- The value of something that may be asked for. -/
inductive Given
  /-- It was not asked for. -/
  | nothing
  /-- It was asked for without a value. -/
  | blank
  | value (text : String)
deriving Repr, DecidableEq, Inhabited

namespace Given

/-- The value, where none is needed. -/
def text? : Given → Option String
  | nothing | blank => none
  | value text => some text

/-- The value, if it is there. -/
def ofOption : Option String → Given
  | none => nothing
  | some text => value text

end Given

/-- **What a session is asked for.** -/
structure Request where
  /-- The files to convert; if there are none, those of the source folder. -/
  files : List String
  /-- The source folder. -/
  source : Given
  /-- The output folder. -/
  out : Given
  /-- The path of the configuration. -/
  config : Given
  /-- Whether documents are written next to the outputs. -/
  debug : Bool
  /-- The name of the target. -/
  target : Given
  /-- Whether the steps of the session are reported. -/
  verbose : Bool
deriving Repr, DecidableEq, Inhabited

/-- Nothing asked for. -/
def Request.default : Request := ⟨[], .nothing, .nothing, .nothing, false, .nothing, false⟩

/-- **Why a session ended early.** -/
inductive Failure
  /-- It was refused with a message and this exit status. -/
  | refused (status : Nat)
  | unknownTarget
  /-- The target or the configuration was asked for without a value. -/
  | blankValue
  | config (error : ConfigError)
  | parse (error : ParseError)
  | output (error : OutputError)
  | file (fault : FileFault)
  /-- A file is no text in UTF-8. -/
  | notText
  /-- A number in the configuration has too many digits. -/
  | configNumberTooLong
  /-- The output holds half a surrogate pair. -/
  | halfCharacter
deriving Repr, DecidableEq, Inhabited

/-! ## Reports -/

/-- The line that reports a remark on a statement. -/
def Note.line (n : Note) : String :=
  match n.remark with
  | .ignored =>
    "DEBUG protoc_ts.parser.proto_ast_parser: Ignoring statement " ++ toString n.index ++ ": "
      ++ Text.quoted n.text
  | .bodyDropped =>
    "DEBUG protoc_ts.parser.proto_ast_parser: Statement " ++ toString n.index ++ ": "
      ++ Text.quoted n.text ++ " cannot nest here, body dropped"
  | .rekeyed old new =>
    "DEBUG protoc_ts.parser.reference_resolver: Re-keyed import " ++ Text.quoted old ++ " as "
      ++ Text.quoted new

/-- The line that reports a conversion. -/
def Target.convertedLine (t : Target) (input output : String) : String :=
  "INFO " ++ t.reporter ++ ": Converted " ++ input ++ " -> " ++ output

/-- The line that reports a configuration. -/
def configLine (path : String) : String :=
  "DEBUG protoc_ts.config: Loaded config from " ++ path

section

variable {m : Type → Type} [Monad m] [Host m]

/-- Reports a step of a session that is asked for reports. -/
def report (verbose : Bool) (line : String) : ExceptT Failure m Unit :=
  if verbose then Host.warn line else return ()

/-! ## Files -/

/-- The text of a file. -/
def readTextFile (path : String) : ExceptT Failure m String := do
  match ← Host.read (FilePath.normal path) with
  | .error fault => throw (.file fault)
  | .ok bytes => match String.fromUTF8? bytes with
    | some text => return String.ofList (Text.unifyBreaks text.toList)
    | none => throw .notText

/-- Writes a text to a file. -/
def writeTextFile (path text : String) : ExceptT Failure m Unit := do
  match ← Host.write (FilePath.normal path) text with
  | .error fault => throw (.file fault)
  | .ok () => return ()

/-! ## The configuration -/

/-- The configuration in the file at a path. -/
def readConfig (verbose : Bool) (path : String) : ExceptT Failure m Config := do
  match Json.parse (← readTextFile path) with
  | .error .malformed => throw (.config ⟨.malformed, path⟩)
  | .error .integerTooLong => throw .configNumberTooLong
  | .ok json =>
    report verbose (configLine path)
    match Config.ofJson json with
    | .ok config => return config
    | .error fault => throw (.config ⟨fault, path⟩)

/-- The name of the configuration that is used without being asked for. -/
def defaultConfigName : String := "p2t.json"

/-- **The configuration of a session**: the file that was asked for, or else the one of the default
name in the given folder, or else none. -/
def loadConfig (verbose : Bool) (path : Option String) (folder : String) :
    ExceptT Failure m Config := do
  match path with
  | some path =>
    match ← Host.kindOf (FilePath.normal path) with
    | .ok .file => readConfig verbose (FilePath.normal path)
    | .error .nameTooLong => throw (.file .nameTooLong)
    | _ => throw (.config ⟨.missing, path⟩)
  | none =>
    let path := FilePath.normal (FilePath.join folder defaultConfigName)
    match ← Host.kindOf path with
    | .ok .file => readConfig verbose path
    | .error .nameTooLong => throw (.file .nameTooLong)
    | _ => return .default

/-- The configuration that a session asks for, or else the one of the current folder. -/
def givenConfig (verbose : Bool) : Given → ExceptT Failure m Config
  | .blank => throw .blankValue
  | .nothing => do loadConfig verbose none (← Host.currentFolder)
  | .value path => do loadConfig verbose (some path) (← Host.currentFolder)

/-! ## Conversion -/

/-- The document in the file at a path. -/
def readDocument (verbose : Bool) (path : String) : ExceptT Failure m Document := do
  let reading := Document.read (Source.statements (← readTextFile path))
  reading.notes.forM fun n => report verbose n.line
  match reading.result with
  | .ok d => return d
  | .error e => throw (.parse e)

/-- The output of a document takes half a surrogate pair from the configuration. -/
def Target.takesHalf (target : Target) (config : Config) (d : Document) : Bool :=
  config.halfImports
    || (target = .typeScript && config.halfWrapper && d.services.any fun s => !s.rpcs.isEmpty)

/-- Writes the output of a document.  A half character is found when the file is open. -/
def writeOutput (target : Target) (config : Config) (d : Document) (path text : String) :
    ExceptT Failure m Unit := do
  if target.takesHalf config d then
    writeTextFile path ""
    throw .halfCharacter
  else writeTextFile path text

/-- **Converts one file.**  The document is written next to the output if that is asked for. -/
def convertFile (verbose debug : Bool) (target : Target) (config : Config)
    (input output : String) : ExceptT Failure m Unit := do
  let d ← readDocument verbose input
  if debug then
    match d.dump with
    | some text => writeTextFile (output ++ ".debug.json") text
    | none => throw (.output .numberTooLong)
  match target.render d d.symbolTable config with
  | .ok text => writeOutput target config d output text
  | .error e => throw (.output e)
  report verbose (target.convertedLine input output)

/-! ## The whole session -/

/-- The suffix of schema files. -/
def schemaSuffix : String := ".proto"

/-- The schema files of a folder by name, in the order of their names. -/
def schemaNames (folder : String) : m (List String) := do
  let names ← Host.namesIn (FilePath.normal folder)
  return (names.filter (schemaSuffix.toList.isSuffixOf ·.toList)).mergeSort (decide <| · ≤ ·)

/-- The folder that was asked for, or else the current one. -/
def folderOr (folder : Option String) : m String :=
  match folder with
  | none | some "" => Host.currentFolder
  | some path => return path

/-- Refuses a path that leads to no folder. -/
def requireFolder (what path : String) : ExceptT Failure m Unit := do
  unless FileKind.folder.found (← Host.kindOf path) do
    Host.warn (what ++ " Path \"" ++ path ++ "\" is not a valid folder path.")
    throw (.refused 1)

/-- The target that was asked for, TypeScript if none was. -/
def givenTarget : Given → Except Failure Target
  | .nothing => .ok .typeScript
  | .blank => .error .blankValue
  | .value name => match Target.ofName? name with
    | some target => .ok target
    | none => .error .unknownTarget

/-- Converts one of the files of a session; the result has the path of the output, if there is any.
A name that leads to no schema file is reported and passed over. -/
def convertNamed (request : Request) (target : Target) (config : Config)
    (source out name : String) : ExceptT Failure m (Option String) := do
  let input := FilePath.join source name
  if !FileKind.file.found (← Host.kindOf input) then
    Host.say ("File \"" ++ input ++ "\" is not a valid proto file.")
    return none
  else if FilePath.suffix input ≠ schemaSuffix then
    Host.say ("Path \"" ++ input ++ "\" is not a valid proto path.")
    return none
  else
    let output := FilePath.join out (FilePath.stem input ++ target.suffix)
    try convertFile request.verbose request.debug target config input output
    catch e =>
      if let .parse _ := e then Host.warn ("Error while parsing file: " ++ input)
      throw e
    Host.say ("  Generated: " ++ output)
    return some output

/-- **Runs a session.**  The result lists the outputs in order. -/
def Request.run (request : Request) : ExceptT Failure m (List String) := do
  let source ← folderOr request.source.text?
  let out ← folderOr request.out.text?
  requireFolder "Output" out
  requireFolder "Proto" source
  let target ← ExceptT.mk (pure (givenTarget request.target))
  let config ← givenConfig request.verbose request.config
  let names ← if request.files.isEmpty then schemaNames source else pure request.files
  if names.isEmpty then
    Host.say ("No .proto files found under " ++ source)
    return []
  return (← names.mapM (convertNamed request target config source out)).filterMap id

end

end ProtoSchema
