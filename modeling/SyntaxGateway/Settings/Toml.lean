import SyntaxGateway.Settings.Basic
import SyntaxGateway.Toml.Reader

/-!
# Settings and TOML

Settings are written one to a line, in their order, and those left open are left out. They are read
from the outermost table of a document; keys that are no setting are skipped.
-/

namespace SyntaxGateway.Settings

/-! ## Writing -/

/-- The line of a setting, if it is given. -/
def tomlLine (key : String) (value : Option (List Char)) : List Char :=
  (value.map fun v => key.toList ++ " = ".toList ++ v ++ ['\n']).getD []

/-- The text of an integer, if TOML can hold it. -/
def tomlInteger? (n : Nat) : Option (List Char) :=
  if n < Nat.pow 2 63 then some (toString n).toList else none

/-- Settings as a document, if TOML can hold them. -/
def toToml? (s : Settings) : Option String := do
  let port ← s.port.mapM tomlInteger?
  let timeout ← s.timeoutSeconds.mapM tomlInteger?
  return String.ofList <|
    tomlLine "host" (s.host.map fun h => Toml.quote h.toList) ++
      tomlLine "port" port ++
      tomlLine "uast_url" (s.serviceUrl.map fun u => Toml.quote u.toList) ++
      tomlLine "timeout_secs" timeout

/-! ## Reading -/

/-- The text that a key has, or nothing if the key is missing. Any other value is refused. -/
def textOf? (entries : Toml.Entries) (key : String) : Option (Option String) :=
  match entries.lookup key.toList with
  | none => some none
  | some (.string text) => some (some (String.ofList text))
  | some _ => none

/-- The natural number below `limit` that a key has, or nothing if the key is missing. -/
def naturalOf? (entries : Toml.Entries) (key : String) (limit : Nat) : Option (Option Nat) :=
  match entries.lookup key.toList with
  | none => some none
  | some (.integer n) => if 0 ≤ n ∧ n < limit then some (some n.toNat) else none
  | some _ => none

/-- The settings in a table. -/
def ofEntries? (entries : Toml.Entries) : Option Settings := do
  return ⟨← textOf? entries "host", ← naturalOf? entries "port" (Nat.pow 2 16),
    ← textOf? entries "uast_url", ← naturalOf? entries "timeout_secs" (Nat.pow 2 64)⟩

/-- The settings in a document. -/
def ofToml? (text : String) : Option Settings := do ofEntries? (← Toml.read? text.toList).entries

end SyntaxGateway.Settings
