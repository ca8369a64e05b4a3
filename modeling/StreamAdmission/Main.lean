import StreamAdmission.CommandLine
import StreamAdmission.Files

/-!
# The program

Reads files from the working directory and writes the output of a run. Errors are logged. Clusters
cannot be reached from here: every attempt to connect with one fails.
-/

namespace StreamAdmission

/-- The probe of a program without a client. -/
def unconnected : Probe :=
  ⟨fun address => .error (.connectionUnavailable
    ("no client for " ++ address.bootstrapServers) none)⟩

/-- Logs the errors, a line each, and tells no places in what is refused. -/
def plainConsole : CommandLine.Console where
  decoders := ⟨fun _ => "not understood", fun _ => "not understood"⟩
  log lines := String.join ((lines.filter (·.level = .error)).map fun line => line.render ++ "\n")
  usage _ := "error: invalid arguments\n"

/-- The number by which the system tells that a directory was found; it may come negated. -/
def isDirectoryNumber : UInt32 := 21

def readErrorOf : IO.Error → ReadError
  | .inappropriateType _ number _ =>
    if number = isDirectoryNumber ∨ number = 0 - isDirectoryNumber then .isDirectory
    else .notDirectory
  | .invalidArgument .. => .nameTooLong
  | .noFileOrDirectory .. => .notFound
  | e => .other (toString e)

def readText (path : String) : IO (Except ReadError String) := do
  if let some fault := pathFault? path then return .error fault
  try
    let content ← IO.FS.readBinFile path
    match String.fromUTF8? content with
    | some text => return .ok text
    | none => return .error .notText
  catch e => return .error (readErrorOf e)

def readNamed (args : List String) : IO (List (String × Except ReadError String)) :=
  match CommandLine.Arguments.parse? args with
  | none => return []
  | some named =>
    (named.config.toList ++ named.definition :: named.known).mapM fun path => do
      return (path, ← readText path)

end StreamAdmission

open StreamAdmission in
def main (args : List String) : IO UInt32 := do
  let files ← readNamed args
  let read (path : String) : Except ReadError String :=
    match files.find? (·.1 = path) with
    | some (_, content) => content
    | none => .error .notFound
  let output := (CommandLine.execute read (fun _ => unconnected) args).output plainConsole
  IO.print output.stdout
  IO.eprint output.stderr
  return output.exitCode.toUInt32
