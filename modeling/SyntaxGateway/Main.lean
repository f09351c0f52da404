import SyntaxGateway.CommandLine.Run

/-!
# The program

Connects commands with the arguments, the files and the terminal of a process.
-/

namespace SyntaxGateway

/-- The fault behind an error of the system. -/
def FileFault.ofError : IO.Error → FileFault
  | .noFileOrDirectory .. => .notFound
  | .inappropriateType _ 21 _ => .isDirectory
  | .inappropriateType _ 20 _ => .notDirectory
  | error => .other (toString error)

instance : Files IO where
  isThere path := do
    match ← (IO.FS.withFile path .read fun _ => pure ()).toBaseIO with
    | .ok () => return true
    | .error (.noFileOrDirectory ..) => return false
    | .error (.inappropriateType _ 20 _) => return false
    | .error _ => return true
  read path := do
    match ← (IO.FS.readBinFile path).toBaseIO with
    | .ok bytes => return .ok bytes.toList
    | .error error => return .error (.ofError error)
  write path content := do
    match ← (IO.FS.writeBinFile path content.toByteArray).toBaseIO with
    | .ok () => return .ok ()
    | .error error => return .error (.ofError error)

end SyntaxGateway

open SyntaxGateway in
def main (arguments : List String) : IO UInt32 := do
  let service ← IO.getEnv Command.serviceVariable
  let environment (name : String) : Option String :=
    if name = Command.serviceVariable then service else none
  let stdout ← IO.getStdout
  let stderr ← IO.getStderr
  let noColor := ((← IO.getEnv "NO_COLOR").getD "") ≠ ""
  let w : Surroundings IO :=
    { color := !noColor && (← stdout.isTty)
      errorColor := !noColor && (← stderr.isTty)
      listen := fun _ => return some "Operation not supported (os error 95)" }
  let report ← Command.runArguments w environment arguments
  IO.print report.output
  IO.eprint report.errors
  return report.code.toUInt32
