/-
The program.  It reaches the files of the running system and prints what the command line reports.
-/
import Schemata.CommandLine

open Schemata CommandLine

/-- What an input or output error of the running system says. -/
def systemError (e : IO.Error) : FileError :=
  match e with
  | .noFileOrDirectory .. => .notFound
  | .inappropriateType _ 21 _ => .isDirectory
  | .inappropriateType .. => .notDirectory
  | .invalidArgument _ 36 _ => .nameTooLong
  | .permissionDenied .. => .permissionDenied
  | e => .system e.toString 5

def systemFiles : Files IO where
  read path := do
    try
      match String.fromUTF8? (← IO.FS.readBinFile path) with
      | some text => return .ok text
      | none => return .error .notText
    catch e => return .error (systemError e)
  write path content := do
    try
      IO.FS.writeFile path content
      return .ok ()
    catch e => return .error (systemError e)

def main (args : List String) : IO UInt32 := do
  let report ← run systemFiles "schemaviz" args
  (← IO.getStdout).putStr report.out
  (← IO.getStderr).putStr report.err
  return report.code.toUInt32
