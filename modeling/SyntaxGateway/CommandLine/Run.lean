import SyntaxGateway.CommandLine.Command
import SyntaxGateway.Language.Detection
import SyntaxGateway.Path
import SyntaxGateway.Settings.File
import SyntaxGateway.Terminal.Status

/-!
# Running commands

What a command shows, on its output and for its errors, and the code it ends with: 0 if all went
well, 1 if something failed, 2 if the arguments make no sense.
-/

namespace SyntaxGateway

/-- What a run shows, and its code. -/
structure Report where
  output : String
  errors : String
  code : Nat
deriving DecidableEq, Repr

namespace Report

def success (output : String) : Report := ⟨output, "", 0⟩

/-- A failure behind some output and some errors. -/
def failure (output errors problem : String) : Report := ⟨output, s!"{errors}Error: {problem}\n", 1⟩

end Report

/-- The surroundings of a run: whether colours are wanted on the output and for errors, and how to
listen for requests with some settings until that ends or fails. -/
structure Surroundings (m : Type → Type) where
  color : Bool
  errorColor : Bool
  listen : ResolvedSettings → m (Option String)

namespace Command

def version : String := "uastgate 0.0.1"

variable {m : Type → Type} [Monad m] [Files m]

/-- The language of a file by its content and its name. -/
def runDetect (color : Bool) (file : String) : m Report := do
  match ← Files.readText file with
  | .error fault => return .failure "" "" fault.message
  | .ok content =>
    let language := (Language.detect content
      ((Path.fileName? file.toList).map String.ofList)).value
    if language.isUnknown then
      return .failure "" (Terminal.wrong color s!"Could not determine the language of {file}")
        "language undetermined"
    return .success s!"📄 {language.name} ({language.category.text})\n"

/-- What is shown when the gateway starts. -/
def startText (color : Bool) (s : ResolvedSettings) : String :=
  Terminal.started color s!"uastgate listening on {s.host}:{s.port}" ++
    Terminal.info color "UAST service" s.serviceUrl

/-- Runs a command. -/
def run (w : Surroundings m) : Command → m Report
  | .serve config overrides => do
    match (← Settings.load config).value with
    | .error problem => return .failure "" "" problem.message
    | .ok file =>
      let s := Settings.resolve file overrides
      match ← w.listen s with
      | none => return .success (startText w.color s)
      | some problem => return .failure (startText w.color s) "" problem
  | .detect file => runDetect w.errorColor file
  | .languages =>
    return .success
      (Terminal.heading w.color "Known languages" ++ Terminal.tableOfEntries Language.table ++ "\n")
  | .init path force => do
    let path := path.getD Settings.defaultPath
    match ← Settings.save path .defaults force with
    | .error problem => return .failure "" "" problem.message
    | .ok () => return .success (Terminal.done w.color s!"⚙️ Wrote {path}")

/-- Runs the command that arguments write. -/
def runArguments (w : Surroundings m) (environment : String → Option String)
    (arguments : List String) : m Report :=
  match ofArguments environment arguments with
  | .ok c => c.run w
  | .error .version => return .success s!"{version}\n"
  | .error .help => return .success ""
  | .error .usage => return ⟨"", "", 2⟩

end Command

end SyntaxGateway
