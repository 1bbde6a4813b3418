/-
The command line: it reads a definition script, or takes the sample schema, and writes the schema
as a script or as JSON.  All arguments are looked at before anything is read.
-/
import Schemata.Session
import Schemata.Sql.Encoding

namespace Schemata
namespace CommandLine

inductive Format
  | sql
  | json
  deriving DecidableEq, Repr

def Format.ofName? (s : String) : Option Format :=
  let word := String.ofList (Text.lower s.toList)
  if word == "sql" then some sql else if word == "json" then some json else none

structure Request where
  input : Option String := none
  output : Option String := none
  format : Format := .sql
  options : Sql.ImportOptions := {}
  sample : Bool := false
  deriving Repr

inductive BadArgument
  | format (s : String)
  | columns (s : String)
  | dialect (s : String)
  | option (s : String)
  | surplus (s : String)
  deriving DecidableEq, Repr

def BadArgument.message : BadArgument → String
  | format s => s!"Invalid format: {s}"
  | columns s => s!"Invalid column count: {s}"
  | dialect s => s!"Invalid dialect: {s}"
  | option s => s!"Unknown option: {s}"
  | surplus s => s!"Unexpected argument: {s}"

/-- A number of columns: decimal digits, in front of which a plus sign may stand. -/
def columnCount? (s : String) : Option Nat :=
  let digits := match s.toList with
    | '+' :: rest => rest
    | cs => cs
  if !digits.isEmpty && digits.all Json.isDigit && Json.natOfDigits digits < Grid.columnBound then
    some (Json.natOfDigits digits)
  else none

def Request.withOption (r : Request) (name value : String) : Except BadArgument Request :=
  if name == "-o" || name == "--output" then .ok { r with output := some value }
  else if name == "-f" || name == "--format" then
    match Format.ofName? value with
    | some format => .ok { r with format := format }
    | none => .error (.format value)
  else if name == "-c" || name == "--columns" then
    match columnCount? value with
    | some n => .ok { r with options.grid.columns := n }
    | none => .error (.columns value)
  else
    match Sql.DialectChoice.ofNickname? value with
    | some dialect => .ok { r with options.dialect := dialect }
    | none => .error (.dialect value)

def takesValue (name : String) : Bool :=
  ["-o", "--output", "-f", "--format", "-c", "--columns", "-d", "--dialect"].contains name

/-- Options that only say what is logged.  Nothing is. -/
def isLogOption (name : String) : Bool := ["-v", "--verbose", "-q", "--quiet"].contains name

def Request.withArgument (r : Request) (arg : String) : Except BadArgument Request :=
  if arg == "--infer-one-to-one" then .ok { r with options.inferOneToOne := true }
  else if arg == "--sample" then .ok { r with sample := true }
  else if isLogOption arg then .ok r
  else if arg.startsWith "-" then .error (.option arg)
  else if r.input.isSome then .error (.surplus arg)
  else .ok { r with input := some arg }

/-- The request with further arguments.  An option at the end that lacks its value has no effect. -/
def Request.withArguments (r : Request) : List String → Except BadArgument Request
  | [] => .ok r
  | [arg] => if takesValue arg then .ok r else r.withArgument arg
  | arg :: value :: rest =>
    if takesValue arg then do
      let r ← r.withOption arg value
      r.withArguments rest
    else do
      let r ← r.withArgument arg
      r.withArguments (value :: rest)

def usage (program : String) : String :=
  "Usage: " ++ program ++ " <input.sql> [options]\n" ++
  "       " ++ program ++ " --sample [options]\n" ++
  "\n" ++
  "Options:\n" ++
  "  -o, --output <file>      Output file (default: stdout)\n" ++
  "  -f, --format <format>    Output format: sql, json (default: sql)\n" ++
  "  -c, --columns <n>        Grid columns for table placement (default: 3)\n" ++
  "  -d, --dialect <dialect>  Input dialect: auto, generic, postgres, mysql (default: auto)\n" ++
  "      --infer-one-to-one   Mark foreign keys on unique columns as 1:1\n" ++
  "      --sample             Start from the built-in sample schema\n" ++
  "  -v, --verbose            Log debug output to stderr\n" ++
  "  -q, --quiet              Only log errors\n"

/-! ## Running -/

inductive FileError
  /-- The operating system refuses it, in its own words and with its number for the reason. -/
  | system (description : String) (code : Nat)
  /-- The file holds no text. -/
  | notText
  deriving DecidableEq, Repr

namespace FileError

def message : FileError → String
  | system description code => s!"{description} (os error {code})"
  | notText => "stream did not contain valid UTF-8"

def notFound : FileError := system "No such file or directory" 2

def permissionDenied : FileError := system "Permission denied" 13

def notDirectory : FileError := system "Not a directory" 20

def isDirectory : FileError := system "Is a directory" 21

def nameTooLong : FileError := system "File name too long" 36

end FileError

structure Files (m : Type → Type) where
  read : String → m (Except FileError String)
  write : String → String → m (Except FileError Unit)

/-- What a program leaves behind: its exit code and what it printed. -/
structure Report where
  code : Nat
  out : String
  err : String
  deriving DecidableEq, Repr

namespace Report

def success (out : String) : Report := ⟨0, out, ""⟩

def failure (err : String) : Report := ⟨1, "", err⟩

/-- Ends with a line that says what is wrong. -/
def complaint (message : String) : Report := failure (message ++ "\n")

end Report

def failureLine (f : Failure) : String := s!"{f.kind.name} error: {f.message}"

def Request.session (r : Request) : Session :=
  if r.sample then .withSample r.options else .new r.options

/-- The diagram of a session in the format that a request asks for. -/
def Request.render (r : Request) (s : Session) : Except Failure String :=
  match r.format with
  | .sql => s.exportScript
  | .json => .ok s.diagram.toJson.pretty

/-- Writes the diagram of a session where a request asks for it. -/
def deliver [Monad m] (files : Files m) (r : Request) (s : Session) : m Report :=
  match r.render s with
  | .error f => pure (.complaint (failureLine f))
  | .ok text =>
    match r.output with
    | none => pure (.success text)
    | some path => do
      match ← files.write path text with
      | .ok () => return .success ""
      | .error e => return .complaint s!"Failed to write {path}: {e.message}"

/-- Does what a request asks for. -/
def serve [Monad m] (files : Files m) (program : String) (r : Request) : m Report :=
  match r.input with
  | none => if r.sample then deliver files r r.session else pure (.failure (usage program))
  | some path => do
    match ← files.read path with
    | .error e => return .complaint s!"Failed to read {path}: {e.message}"
    | .ok text =>
      match r.session.importScript text with
      | .error f => return .complaint (failureLine f)
      | .ok s => deliver files r s

def run [Monad m] (files : Files m) (program : String) (args : List String) : m Report :=
  if args.isEmpty then pure (.failure (usage program))
  else
    match Request.withArguments {} args with
    | .error e => pure (.complaint e.message)
    | .ok r => serve files program r

end CommandLine
end Schemata
