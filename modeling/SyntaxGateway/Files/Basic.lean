import SyntaxGateway.Text.Utf8

/-!
# Files

What the gateway asks of files, wherever they are kept: whether something is there, what it holds,
and to hold something new.
-/

namespace SyntaxGateway

/-- Why a file cannot be read or written. -/
inductive FileFault where
  | notFound
  | isDirectory
  /-- A file stands where the path needs a directory. -/
  | notDirectory
  /-- The file does not hold text. -/
  | notText
  | other (detail : String)
deriving DecidableEq, Repr

namespace FileFault

def message : FileFault → String
  | .notFound => "No such file or directory (os error 2)"
  | .isDirectory => "Is a directory (os error 21)"
  | .notDirectory => "Not a directory (os error 20)"
  | .notText => "stream did not contain valid UTF-8"
  | .other detail => detail

end FileFault

/-- A monad in which files can be used. -/
class Files (m : Type → Type) where
  isThere : (path : String) → m Bool
  read : (path : String) → m (Except FileFault Bytes)
  write : (path : String) → Bytes → m (Except FileFault Unit)

namespace Files

/-- The text that a file holds. -/
def readText {m : Type → Type} [Monad m] [Files m] (path : String) :
    m (Except FileFault String) := do
  match ← Files.read path with
  | .error fault => return .error fault
  | .ok bytes => return (Utf8.toString? bytes).mapError fun _ => .notText

end Files

end SyntaxGateway
