import SyntaxGateway.Files.Basic
import SyntaxGateway.Log
import SyntaxGateway.Settings.Toml

/-!
# The file of settings

Settings are loaded from a file, which may be missing, and written to one, which is replaced only on
request. What fails changes nothing.
-/

namespace SyntaxGateway.Settings

/-- Where settings are kept unless a path is named. -/
def defaultPath : String := "uastgate.toml"

/-- Why settings cannot be loaded or written. -/
inductive FileProblem where
  | file (fault : FileFault)
  /-- The file does not hold settings. -/
  | malformed
  /-- TOML cannot hold the settings. -/
  | unwritable
  | alreadyThere (path : String)
deriving DecidableEq, Repr

def FileProblem.message : FileProblem → String
  | .file fault => fault.message
  | .malformed => "TOML parse error"
  | .unwritable => "out-of-range value for u64 type"
  | .alreadyThere path => s!"config already exists at {path} (use --force to overwrite)"

variable {m : Type → Type} [Monad m] [Files m]

/-- The settings in a file, if there is one. -/
def load (path : Option String) : m (Logged (Except FileProblem (Option Settings))) := do
  let path := path.getD defaultPath
  if !(← Files.isThere path) then return pure (.ok none)
  match ← Files.readText path with
  | .error fault => return pure (.error (.file fault))
  | .ok text =>
    match ofToml? text with
    | none => return pure (.error .malformed)
    | some s => return do
      Logged.log .debug s!"Loaded config from {path}"
      return .ok (some s)

/-- Writes settings to a file. One that is there is replaced only under `force`. -/
def save (path : String) (s : Settings) (force : Bool) : m (Except FileProblem Unit) := do
  if (← Files.isThere path) && !force then return .error (.alreadyThere path)
  match s.toToml? with
  | none => return .error .unwritable
  | some text => return (← Files.write path (Utf8.ofString text)).mapError .file

end SyntaxGateway.Settings
