import SyntaxGateway.CommandLine.Arguments
import SyntaxGateway.Settings.Basic

/-!
# Commands

What the program can be told to do, and how that is written as arguments.
-/

namespace SyntaxGateway

inductive Command where
  /-- Answers requests, with settings from a file and overrides. -/
  | serve (config : Option String) (overrides : Settings)
  /-- Names the language of a file. -/
  | detect (file : String)
  /-- Lists the known languages. -/
  | languages
  /-- Writes a file with the default settings. -/
  | init (path : Option String) (force : Bool)
deriving DecidableEq, Repr

namespace Command

open CommandLine

/-! ## Values -/

/-- The number that digits write. -/
def digits? (cs : List Char) : Option Nat :=
  if cs.isEmpty || !cs.all Char.isDigit then none
  else some (cs.foldl (fun n c => n * 10 + (c.toNat - 48)) 0)

/-- A port: a number of sixteen bits, with a sign or without. -/
def port? (text : String) : Option Nat := do
  let n ← match text.toList with
    | '+' :: rest => digits? rest
    | '-' :: rest => do if (← digits? rest) = 0 then some 0 else none
    | cs => digits? cs
  if n < Nat.pow 2 16 then some n else none

/-- A number of seconds: one of 64 bits, with a plus sign or without. -/
def seconds? (text : String) : Option Nat := do
  let n ← match text.toList with
    | '+' :: rest => digits? rest
    | cs => digits? cs
  if n < Nat.pow 2 64 then some n else none

/-- A path is not empty. -/
def path? (text : String) : Option String := if text = "" then none else some text

/-- Gives a place its first value. -/
def fill {β : Type} (old : Option β) (new : Option β) : Option (Option β) :=
  match old, new with
  | none, some b => some (some b)
  | _, _ => none

/-! ## Options -/

/-- Turns a switch on, unless it is on already. -/
def turnOn (old : Bool) : Option Bool := if old then none else some true

/-- The options that every command has; `verbose` changes whether more is logged. -/
def commonOptions {α : Type} (verbose : (Bool → Option Bool) → α → Option α) :
    List (CommandOption α) :=
  [⟨"verbose", some 'v', .switch (verbose turnOn)⟩, ⟨"help", some 'h', .stop .help⟩]

/-- What has been read of the arguments of `serve`. -/
structure ServeArguments where
  verbose : Bool
  config : Option String
  settings : Settings

def serveOptions : List (CommandOption ServeArguments) :=
  commonOptions (fun f a => (f a.verbose).map fun v => { a with verbose := v }) ++
    [⟨"config", some 'c', .value fun text a =>
        (fill a.config (path? text)).map fun c => { a with config := c }⟩,
      ⟨"host", none, .value fun text a =>
        (fill a.settings.host (some text)).map fun h =>
          { a with settings := { a.settings with host := h } }⟩,
      ⟨"port", some 'p', .value fun text a =>
        (fill a.settings.port (port? text)).map fun p =>
          { a with settings := { a.settings with port := p } }⟩,
      ⟨"uast-url", some 'u', .value fun text a =>
        (fill a.settings.serviceUrl (some text)).map fun u =>
          { a with settings := { a.settings with serviceUrl := u } }⟩,
      ⟨"timeout-secs", none, .value fun text a =>
        (fill a.settings.timeoutSeconds (seconds? text)).map fun n =>
          { a with settings := { a.settings with timeoutSeconds := n } }⟩]

/-- What has been read of the arguments of `detect`. -/
structure DetectArguments where
  verbose : Bool
  file : Option String

def detectOptions : List (CommandOption DetectArguments) :=
  commonOptions fun f a => (f a.verbose).map fun v => { a with verbose := v }

def languagesOptions : List (CommandOption Bool) := commonOptions fun f a => f a

/-- What has been read of the arguments of `init`. -/
structure InitArguments where
  verbose : Bool
  path : Option String
  force : Bool

def initOptions : List (CommandOption InitArguments) :=
  commonOptions (fun f a => (f a.verbose).map fun v => { a with verbose := v }) ++
    [⟨"path", some 'p', .value fun text a =>
        (fill a.path (path? text)).map fun p => { a with path := p }⟩,
      ⟨"force", some 'f', .switch fun a => (turnOn a.force).map fun f => { a with force := f }⟩]

/-- The options in front of a command. -/
def leadingOptions : List (CommandOption Bool) :=
  commonOptions (fun f a => f a) ++ [⟨"version", some 'V', .stop .version⟩]

/-! ## Commands -/

/-- The variable that names the service where no option does. -/
def serviceVariable : String := "UASTGATE_UAST_URL"

/-- A command that takes no words. -/
def noWords {α : Type} : String → α → Option α := fun _ _ => none

/-- The command with a name and the arguments behind it. -/
def ofName (environment : String → Option String) (name : String) (arguments : List String) :
    Except Stop Command :=
  match name with
  | "serve" => do
    let a ← readAll serveOptions noWords ⟨false, none, .empty⟩ arguments
    let url := a.settings.serviceUrl <|> environment serviceVariable
    return .serve a.config { a.settings with serviceUrl := url }
  | "detect" => do
    let a ← readAll detectOptions
      (fun word a => (fill a.file (path? word)).map fun f => { a with file := f }) ⟨false, none⟩
      arguments
    return .detect (← orUsage a.file)
  | "languages" => do
    let _ ← readAll languagesOptions noWords false arguments
    return .languages
  | "init" => do
    let a ← readAll initOptions noWords ⟨false, none, false⟩ arguments
    return .init a.path a.force
  | "help" => .error .help
  | _ => .error .usage

/-- The command that arguments write. -/
def ofArguments (environment : String → Option String) (arguments : List String) :
    Except Stop Command := do
  match ← readOptions leadingOptions false arguments with
  | (_, name :: rest) => if name = "--" then .error .usage else ofName environment name rest
  | (_, []) => .error .usage

end Command

end SyntaxGateway
