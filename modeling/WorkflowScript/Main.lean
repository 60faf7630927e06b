import WorkflowScript.CommandLine.Run

/-!
# The program

The outermost layer: arguments, environment and files come from the
system, and the outcome of the run goes back to it. All decisions are made
in `CommandLine.Run`.
-/

namespace WorkflowScript.Program

/-- The system's number for a path that goes on behind a file. -/
def notDirectoryCode : UInt32 := 20

/-- The system's number for a name that is too long. -/
def nameTooLongCode : UInt32 := 36

/-- The contents of a file of the file system. -/
def readFile : FileReader IO := fun path => do
  try
    let bytes ← IO.FS.readBinFile path
    return .ok bytes.toList
  catch
    | .noFileOrDirectory .. => return .error .notFound
    | .inappropriateType _ code _ =>
      return .error (if code = notDirectoryCode then .notDirectory else .isDirectory)
    | .invalidArgument _ code details =>
      return .error (if code = nameTooLongCode then .nameTooLong else .other details)
    | e => return .error (.other (toString e))

/-- The variables of a block in which each one ends with a zero byte. -/
def splitVariables (block : List Char) : Settings.Environment :=
  (block.splitOn '\x00').filterMap fun entry =>
    match entry.dropWhile (· ≠ '=') with
    | [] => none
    | _ :: value => some (String.ofList (entry.takeWhile (· ≠ '=')), String.ofList value)

/-- The environment of the process. -/
def readEnvironment : IO Settings.Environment := do
  match ← readFile "/proc/self/environ" with
  | .ok bytes => return splitVariables (Text.Utf8.decodeLenient bytes).toList
  | .error _ => return []

/-- How the program is called. -/
def usage : String :=
  "Usage: pmsl [--config PATH] check|format|generate|ast FILE\n"

/-- Runs the command that the arguments ask for and writes what it leaves. -/
def run (arguments : List String) : IO UInt32 := do
  let env ← readEnvironment
  let outcome ← runProgram readFile env arguments
  let exit := outcome.exit
  (← IO.getStdout).putStr exit.stdout
  (← IO.getStderr).putStr exit.stderr
  match outcome.result with
  | .error (.usage .helpRequested) => (← IO.getStdout).putStr usage
  | .error (.usage _) => (← IO.getStderr).putStr usage
  | _ => pure ()
  return exit.code.toUInt32

end WorkflowScript.Program

/-- The program's entry point. -/
def main (arguments : List String) : IO UInt32 := WorkflowScript.Program.run arguments
