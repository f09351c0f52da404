/-!
# Reading arguments

Arguments are words and options. An option has a long name, and a letter if it is used often; its
value stands behind it, in the same argument or in the next one. Letters may share an argument.
Behind two dashes everything is a word. No option may come twice.
-/

namespace SyntaxGateway.CommandLine

/-- Why there is no command to run. -/
inductive Stop where
  /-- The arguments make no sense. -/
  | usage
  /-- The version is asked for. -/
  | version
  /-- Help is asked for. -/
  | help
deriving DecidableEq, Repr

/-- What an option does to what has been read. -/
inductive Effect (α : Type) where
  /-- Takes no value; refuses to be set twice. -/
  | switch (set : α → Option α)
  /-- Takes a value, which may be refused. -/
  | value (set : String → α → Option α)
  /-- Ends the reading. -/
  | stop (reason : Stop)

/-- An option of a command whose arguments are read into `α`. -/
structure CommandOption (α : Type) where
  long : String
  letter : Option Char
  effect : Effect α

/-- What may refuse, as a reason to stop. -/
def orUsage {α : Type} : Option α → Except Stop α
  | some a => .ok a
  | none => .error .usage

/-- An argument that can be a word or a value: one without a dash in front, or the dash alone. -/
def isWord (argument : String) : Bool := argument = "-" || argument.toList.head? ≠ some '-'

variable {α : Type}

/-- What an option still waits for. -/
abbrev Pending (α : Type) := Option (String → α → Option α)

/-- Reads the letters of an argument. The last option may still wait for its value. -/
def readLetters (options : List (CommandOption α)) : List Char → α → Except Stop (α × Pending α)
  | [], a => .ok (a, none)
  | c :: rest, a =>
    match (options.find? (·.letter = some c)).map CommandOption.effect with
    | none => .error .usage
    | some (.stop reason) => .error reason
    | some (.switch set) => do readLetters options rest (← orUsage (set a))
    | some (.value set) =>
      match rest with
      | [] => .ok (a, some set)
      | '=' :: value | value => do return (← orUsage (set (String.ofList value) a), none)

/-- Reads an option by its long name, which may have a value behind an equals sign. -/
def readLong (options : List (CommandOption α)) (text : List Char) (a : α) :
    Except Stop (α × Pending α) :=
  let name := String.ofList (text.takeWhile (· ≠ '='))
  let value := match text.dropWhile (· ≠ '=') with
    | [] => none
    | _ :: value => some (String.ofList value)
  match (options.find? (·.long = name)).map CommandOption.effect, value with
  | some (.stop reason), none => .error reason
  | some (.switch set), none => do return (← orUsage (set a), none)
  | some (.value set), none => .ok (a, some set)
  | some (.value set), some value => do return (← orUsage (set value a), none)
  | _, _ => .error .usage

/-- Reads the option that an argument is, or starts with. -/
def readOption (options : List (CommandOption α)) (argument : String) (a : α) :
    Except Stop (α × Pending α) :=
  match argument.toList with
  | '-' :: '-' :: text => readLong options text a
  | '-' :: letters => readLetters options letters a
  | _ => .error .usage

/-- Reads options up to the first word, and returns what is left. -/
def readOptions (options : List (CommandOption α)) : α → List String → Except Stop (α × List String)
  | a, [] => .ok (a, [])
  | a, argument :: rest =>
    if isWord argument || argument = "--" then .ok (a, argument :: rest)
    else
      match readOption options argument a with
      | .error reason => .error reason
      | .ok (a, none) => readOptions options a rest
      | .ok (a, some set) =>
        match rest with
        | [] => .error .usage
        | value :: rest =>
          if isWord value then
            match set value a with
            | some a => readOptions options a rest
            | none => .error .usage
          else .error .usage

/-- Reads options and words to the end. `word` takes a word, and may refuse it. -/
def readAll (options : List (CommandOption α)) (word : String → α → Option α) :
    α → List String → Except Stop α
  | a, [] => .ok a
  | a, argument :: rest =>
    if argument = "--" then rest.foldlM (fun a w => orUsage (word w a)) a
    else if isWord argument then
      match word argument a with
      | some a => readAll options word a rest
      | none => .error .usage
    else
      match readOption options argument a with
      | .error reason => .error reason
      | .ok (a, none) => readAll options word a rest
      | .ok (a, some set) =>
        match rest with
        | [] => .error .usage
        | value :: rest =>
          if isWord value then
            match set value a with
            | some a => readAll options word a rest
            | none => .error .usage
          else .error .usage

end SyntaxGateway.CommandLine
