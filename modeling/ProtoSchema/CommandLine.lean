import ProtoSchema.Session
import ProtoSchema.Text.Digit

/-!
# CommandLine — what the arguments of a run ask for

Arguments are sorted into switches and plain words, then taken from left to right.  A long switch
may be shortened and carries a value after an equals sign.  Short switches without a value may be
written together, and the value of a short switch may follow it at once; an equals sign after the
first letter is passed over.  After two dashes every argument is a plain word, and a switch whose
value is two dashes has none.  The plain words that stand together, in one place of the line, are
the files.
-/

namespace ProtoSchema

/-! ## Switches -/

/-- The switches of the program. -/
inductive Switch
  | help
  | source
  | out
  | config
  | target
  | debug
  | verbose
deriving Repr, DecidableEq, Inhabited

namespace Switch

/-- The switch is followed by a value. -/
def takesValue : Switch → Bool
  | source | out | config | target => true
  | help | debug | verbose => false

/-- The short spelling of a switch, after its dash. -/
def ofLetter? : Char → Option Switch
  | 'h' => some help
  | 'p' => some source
  | 'o' => some out
  | 'c' => some config
  | 't' => some target
  | 'v' => some verbose
  | _ => none

/-- The long spellings, after their dashes. -/
def longNames : List (String × Switch) :=
  [("help", help), ("proto-path", source), ("out", out), ("config", config), ("target", target),
    ("debug", debug), ("verbose", verbose)]

end Switch

/-! ## Arguments -/

/-- **A sorted argument.** -/
inductive Argument
  | plain (text : String)
  /-- The two dashes after which all is plain. -/
  | dashes
  /-- A long switch, perhaps with a value after an equals sign. -/
  | long (switch : Switch) (value : Option String)
  /-- A short switch, and what was written behind it, if anything was. -/
  | short (switch : Switch) (rest : Option (List Char))
  | unknown
deriving Repr, DecidableEq, Inhabited

/-- Why the arguments start no run. -/
inductive Stop
  | help
  | misuse
deriving Repr, DecidableEq, Inhabited

namespace Argument

/-- The text before the first equals sign. -/
def beforeEquals (cs : List Char) : List Char := cs.takeWhile (· ≠ '=')

/-- The text after the first equals sign, if there is one. -/
def afterEquals? (cs : List Char) : Option String :=
  match cs.dropWhile (· ≠ '=') with
  | [] => none
  | _ :: value => some (String.ofList value)

/-- The text without a line feed at its end. -/
def dropFinalFeed (cs : List Char) : List Char :=
  if cs.getLast? = some '\n' then cs.dropLast else cs

/-- The text is a negative number: digits, or a point and digits after any number of digits, and
perhaps a line feed. -/
def isNegativeNumber : List Char → Bool
  | '-' :: cs =>
    let ds := (dropFinalFeed cs).map Text.toAsciiDigit
    match ds.dropWhile Char.isDigit with
    | [] => !ds.isEmpty
    | '.' :: rest => !rest.isEmpty && rest.all Char.isDigit
    | _ => false
  | _ => false

/-- An argument that starts with a dash and is no switch: negative numbers and texts with a space
are plain. -/
def ofOther (cs : List Char) : Argument :=
  if isNegativeNumber cs || cs.contains ' ' then plain (String.ofList cs) else unknown

/-- The argument that two dashes start: a switch may be shortened as long as it is the only one. -/
def ofLong (cs : List Char) : Except Stop Argument :=
  match Switch.longNames.filter fun n => (beforeEquals cs).isPrefixOf n.1.toList with
  | [] => .ok (ofOther ('-' :: '-' :: cs))
  | [n] => .ok (long n.2 (afterEquals? cs))
  | _ => .error .misuse

/-- What was written behind a short switch: an equals sign right after it does not count. -/
def behind : List Char → Option (List Char)
  | [] => none
  | '=' :: cs => some cs
  | cs => some cs

/-- **Sorts an argument** before the two dashes. -/
def ofText (text : String) : Except Stop Argument :=
  match text.toList with
  | '-' :: '-' :: cs => ofLong cs
  | '-' :: c :: cs => match Switch.ofLetter? c with
    | some s => .ok (short s (behind cs))
    | none => .ok (ofOther ('-' :: c :: cs))
  | _ => .ok (plain text)

/-- Sorts the arguments of a line. -/
def ofLine : List String → Except Stop (List Argument)
  | [] => .ok []
  | "--" :: rest => .ok (dashes :: rest.map plain)
  | text :: rest => do
    let a ← ofText text
    let as ← ofLine rest
    return a :: as

/-- The words of plain arguments; the dashes are none. -/
def word? : Argument → Option String
  | plain text => some text
  | _ => none

/-- The argument is no switch. -/
def isPlain : Argument → Bool
  | plain _ | dashes => true
  | long .. | short .. | unknown => false

end Argument

/-! ## Taking the arguments -/

/-- A request while the arguments are taken. -/
structure Taking where
  request : Request
  /-- The files were taken. -/
  filesTaken : Bool
  /-- There are arguments nobody asked for. -/
  surplus : Bool
deriving Repr, DecidableEq, Inhabited

namespace Taking

/-- The value of a switch: two dashes are none. -/
def valueOf (text : String) : Given := if text = "--" then .blank else .value text

/-- The value is not the name of a target. -/
def isBadTarget : Given → Bool
  | .value name => (Target.ofName? name).isNone
  | .nothing | .blank => false

/-- Takes a switch with its value, empty for one that has none. -/
def switch (t : Taking) (s : Switch) (value : String) : Except Stop Taking :=
  let r := t.request
  match s with
  | .help => .error .help
  | .source => .ok { t with request := { r with source := valueOf value } }
  | .out => .ok { t with request := { r with out := valueOf value } }
  | .config => .ok { t with request := { r with config := valueOf value } }
  | .target =>
    if isBadTarget (valueOf value) then .error .misuse
    else .ok { t with request := { r with target := valueOf value } }
  | .debug => .ok { t with request := { r with debug := true } }
  | .verbose => .ok { t with request := { r with verbose := true } }

/-- Takes plain arguments that stand together: the files, if these were not taken yet. -/
def plain (t : Taking) (run : List Argument) : Taking :=
  if run.isEmpty then t
  else if t.filesTaken then { t with surplus := true }
  else { t with request := { t.request with files := run.filterMap Argument.word? },
                filesTaken := true }

end Taking

/-- The switches of one argument with their values. -/
structure Group where
  switches : List (Switch × String)
  /-- The value is the next argument. -/
  takesNext : Option Switch
deriving Repr, DecidableEq, Inhabited

/-- Puts a switch in front of a group. -/
def Group.cons (s : Switch) (g : Group) : Group := { g with switches := (s, "") :: g.switches }

namespace Group

/-- A switch by itself: its value, if it takes one, is the next argument. -/
def single (s : Switch) : Group :=
  if s.takesValue then ⟨[], some s⟩ else ⟨[(s, "")], none⟩

/-- A long switch; only one that takes a value may have one. -/
def ofLong (s : Switch) : Option String → Except Stop Group
  | none => .ok (single s)
  | some value => if s.takesValue then .ok ⟨[(s, value)], none⟩ else .error .misuse

/-- A short switch and the letters right after it: its value, or more short switches. -/
def ofLetters (s : Switch) : List Char → Except Stop Group
  | [] => .ok (single s)
  | c :: cs =>
    if s.takesValue then .ok ⟨[(s, String.ofList (c :: cs))], none⟩
    else match Switch.ofLetter? c with
      | some next => (ofLetters next cs).map (cons s)
      | none => .error .misuse

/-- **A short switch and what was written behind it.**  Only a value may be empty. -/
def ofShort (s : Switch) : Option (List Char) → Except Stop Group
  | none => .ok (single s)
  | some [] => ofLong s (some "")
  | some cs => ofLetters s cs

end Group

/-- Takes the switches of a group and then, if it asks for one, the next argument as a value. -/
def Taking.group (t : Taking) (g : Group) (rest : List Argument) :
    Except Stop (Taking × List Argument) := do
  match g.takesNext, rest with
  | none, _ =>
    return (← g.switches.foldlM (fun t s => t.switch s.1 s.2) t, rest)
  | some s, .plain value :: rest =>
    return (← (g.switches ++ [(s, value)]).foldlM (fun t s => t.switch s.1 s.2) t, rest)
  | some _, _ => throw .misuse

/-- Takes the arguments from left to right; `fuel` is at least their number. -/
def takeFrom : (fuel : Nat) → Taking → List Argument → Except Stop Taking
  | 0, t, _ => .ok t
  | _, t, [] => .ok t
  | fuel + 1, t, a :: rest => match a with
    | .long s value => do
      let (t, rest) ← t.group (← Group.ofLong s value) rest
      takeFrom fuel t rest
    | .short s behind => do
      let (t, rest) ← t.group (← Group.ofShort s behind) rest
      takeFrom fuel t rest
    | .unknown => takeFrom fuel { t with surplus := true } rest
    | _ =>
      takeFrom fuel (t.plain ((a :: rest).takeWhile Argument.isPlain))
        ((a :: rest).dropWhile Argument.isPlain)

/-- **The request that a line of arguments makes.** -/
def Request.ofArguments (line : List String) : Except Stop Request := do
  let arguments ← Argument.ofLine line
  let t ← takeFrom arguments.length ⟨.default, false, false⟩ arguments
  if t.surplus then throw .misuse
  return t.request

/-! ## Running a line -/

/-- How the program is used. -/
def usage : String :=
  "usage: [-h] [-p PROTO_PATH] [-o OUT] [-c CONFIG] [-t \x7bts,zod\x7d] [--debug] [-v] "
    ++ "[proto_files ...]"

/-- **Runs the program** on a line of arguments.  The result is the exit status. -/
def runLine {m : Type → Type} [Monad m] [Host m] (line : List String) : ExceptT Failure m Nat := do
  match Request.ofArguments line with
  | .error .help => Host.say usage; return 0
  | .error .misuse => Host.warn usage; return 2
  | .ok request =>
    try
      let _ ← request.run
      return 0
    catch
      | .refused status => return status
      | .config e => Host.warn ("FATAL: " ++ e.message); return 1
      | .parse e => Host.warn ("FATAL: " ++ e.message); return 1
      | e => throw e

end ProtoSchema
