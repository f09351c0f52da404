import SyntaxGateway.Text.Split

/-!
# Paths of files

Paths are parts with slashes between them. Empty parts and `.` lead nowhere new and do not count.
-/

namespace SyntaxGateway.Path

/-- The parts of a path that count. -/
def parts (path : List Char) : List (List Char) :=
  (Text.splitBy (· = '/') path).filter fun part => part ≠ [] && part ≠ ['.']

/-- The name of the file that a path leads to. A path without parts, or one that ends in `..`, leads
to no named file. -/
def fileName? (path : List Char) : Option (List Char) :=
  match (parts path).getLast? with
  | none => none
  | some part => if part = ['.', '.'] then none else some part

/-- The name of the file, or the whole path if it leads to no named file. -/
def baseName (path : List Char) : List Char := (fileName? path).getD path

/-- What stands behind the last dot of a file name, unless that dot is its first character. -/
def extension? (fileName : List Char) : Option (List Char) :=
  let behind := fileName.reverse.takeWhile (· ≠ '.')
  match fileName.reverse.dropWhile (· ≠ '.') with
  | [] | [_] => none
  | _ => some behind.reverse

end SyntaxGateway.Path
