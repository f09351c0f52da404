import SyntaxGateway.Files.Basic
import SyntaxGateway.Path

/-!
# Disks

Files in a value: directories and files with their content, under paths from one directory on. What
is written is read back, and nothing else changes.
-/

namespace SyntaxGateway

/-- A directory and all that is below it; each place is the list of the names that lead there. -/
structure Disk where
  files : List (List (List Char) × Bytes)
  directories : List (List (List Char))

namespace Disk

def empty : Disk := ⟨[], []⟩

/-- Where a path leads. -/
inductive Place where
  | directory
  | file (place : List (List Char)) (content : Bytes)
  /-- Nothing is there, but a file could be. -/
  | vacant (place : List (List Char))

/-- Follows the names of a path from a directory on. Each but the last must be a directory. -/
def follow (d : Disk) : (here : List (List Char)) → (names : List (List Char)) →
    Except FileFault Place
  | _, [] => .ok .directory
  | here, name :: rest =>
    if name = ['.', '.'] then d.follow here.dropLast rest
    else
      let place := here ++ [name]
      match d.files.lookup place with
      | some content => if rest = [] then .ok (.file place content) else .error .notDirectory
      | none =>
        if d.directories.contains place then d.follow place rest
        else if rest = [] then .ok (.vacant place)
        else .error .notFound

/-- A path that can only lead to a directory, as it ends in a slash or a dot. -/
def endsInDirectory (path : List Char) : Bool :=
  match (Text.splitBy (· = '/') path).getLast? with
  | some [] | some ['.'] => true
  | _ => false

/-- Where a path leads. The empty path leads nowhere. -/
def locate (d : Disk) (path : String) : Except FileFault Place := do
  let path := path.toList
  if path = [] then .error .notFound
  match ← d.follow [] (Path.parts path) with
  | .file place content =>
    if endsInDirectory path then .error .notDirectory else return .file place content
  | place => return place

def isThere (d : Disk) (path : String) : Bool :=
  match d.locate path with
  | .ok .directory | .ok (.file _ _) => true
  | _ => false

def read (d : Disk) (path : String) : Except FileFault Bytes := do
  match ← d.locate path with
  | .directory => .error .isDirectory
  | .file _ content => return content
  | .vacant _ => .error .notFound

/-- Sets the content of a place. -/
def put (d : Disk) (place : List (List Char)) (content : Bytes) : Disk :=
  { d with files := (place, content) :: d.files.filter (·.1 ≠ place) }

def write (d : Disk) (path : String) (content : Bytes) : Except FileFault Disk := do
  match ← d.locate path with
  | .directory => .error .isDirectory
  | .file place _ => return d.put place content
  | .vacant place =>
    if endsInDirectory path.toList then .error .isDirectory else return d.put place content

/-- The disk with a directory and all directories on the way to it. -/
def makeDirectory (d : Disk) (path : String) : Disk :=
  let names := Path.parts path.toList
  let made := (List.range names.length).map fun i => names.take (i + 1)
  { d with directories := made ++ d.directories }

/-- The disk with a file and all directories on the way to it. -/
def makeFile (d : Disk) (path : String) (content : Bytes) : Disk :=
  let names := Path.parts path.toList
  let directory := String.ofList (['/'].intercalate names.dropLast)
  (d.makeDirectory directory).put names content

instance : Files (StateM Disk) where
  isThere path := do return (← get).isThere path
  read path := do return (← get).read path
  write path content := do
    match (← get).write path content with
    | .error fault => return .error fault
    | .ok d =>
      set d
      return .ok ()

end Disk

end SyntaxGateway
