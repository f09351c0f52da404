/-!
# Log lines as data

What an action logs is part of its result: `Logged α` is a value with the lines that were logged on
the way to it, in order. Nothing here reads the lines again, so a value never depends on them.
-/

namespace SyntaxGateway

namespace Log

inductive Level where
  | debug
  | info
  | warn
  | error
deriving DecidableEq, Repr

def Level.text : Level → String
  | .debug => "DEBUG"
  | .info => "INFO"
  | .warn => "WARN"
  | .error => "ERROR"

structure Line where
  level : Level
  message : String
deriving DecidableEq, Repr

def Line.text (l : Line) : String := s!"{l.level.text} {l.message}"

end Log

/-- A value with the lines logged on the way to it, oldest first. -/
structure Logged (α : Type) where
  value : α
  lines : List Log.Line

namespace Logged

instance : Monad Logged where
  pure a := ⟨a, []⟩
  bind x f := ⟨(f x.value).value, x.lines ++ (f x.value).lines⟩

@[simp]
theorem value_pure {α : Type} (a : α) : (pure a : Logged α).value = a := rfl

@[simp]
theorem lines_pure {α : Type} (a : α) : (pure a : Logged α).lines = [] := rfl

@[simp]
theorem value_bind {α β : Type} (x : Logged α) (f : α → Logged β) :
    (x >>= f).value = (f x.value).value := rfl

@[simp]
theorem lines_bind {α β : Type} (x : Logged α) (f : α → Logged β) :
    (x >>= f).lines = x.lines ++ (f x.value).lines := rfl

/-- Logs one line. -/
def log (level : Log.Level) (message : String) : Logged Unit := ⟨(), [⟨level, message⟩]⟩

end Logged

end SyntaxGateway
