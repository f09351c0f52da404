import SyntaxGateway.Url.Basic
import SyntaxGateway.Url.Host

/-!
# Reading URLs

Reads an absolute URL the way browsers do: blanks around it and line breaks inside it do not
count, slashes of the web may lean the other way, segments of dots are resolved, and characters
that need it are percent-encoded. What cannot be read has no scheme, or a host or a port that
makes no sense.
-/

namespace SyntaxGateway.Url

/-- The text of a URL without the controls and spaces around it and without tabs and line breaks. -/
def clean (text : List Char) : List Char :=
  let isEdge (c : Char) : Bool := c.toNat ≤ 0x20
  ((text.dropWhile isEdge).reverse.dropWhile isEdge).reverse.filter fun c =>
    c ≠ '\t' && c ≠ '\n' && c ≠ '\r'

/-- A scheme in small letters, and what follows its colon. -/
def scheme? (text : List Char) : Option (String × List Char) :=
  let isSchemeChar (c : Char) : Bool := c.isAlphanum || c = '+' || c = '-' || c = '.'
  match text.takeWhile isSchemeChar, text.dropWhile isSchemeChar with
  | first :: more, ':' :: rest =>
    if first.isAlpha then some (String.ofList ((first :: more).map Char.toLower), rest) else none
  | _, _ => none

/-- A slash; on the web a backslash is one, too. -/
def isSlash (web : Bool) (c : Char) : Bool := c = '/' || (web && c = '\\')

/-- The end of what can be a host. -/
def endsAuthority (web : Bool) (c : Char) : Bool := isSlash web c || c = '?' || c = '#'

/-! ## Paths -/

/-- A segment that stands for the place where it is found. -/
def isDot (segment : List Char) : Bool :=
  segment = ['.'] || segment.map Char.toLower = "%2e".toList

/-- A segment that stands for the segment above. -/
def isDoubleDot (segment : List Char) : Bool :=
  ["..", ".%2e", "%2e.", "%2e%2e"].contains (String.ofList (segment.map Char.toLower))

/-- Adds segments to those `before` (latest first). A path that ends in dots ends in a slash. -/
def addSegments : (before : List String) → List (List Char) → List String
  | before, [] => before.reverse
  | before, segment :: rest =>
    let close (before : List String) := if rest.isEmpty then "" :: before else before
    if isDoubleDot segment then addSegments (close (before.drop 1)) rest
    else if isDot segment then addSegments (close before) rest
    else addSegments (String.ofList (percentEncode pathSpecial segment) :: before) rest

/-- A path of segments. On the web there is always one. -/
def segmentsOf (web : Bool) (path : List Char) : Path :=
  match path with
  | [] => .segments (if web then [""] else [])
  | c :: rest =>
    .segments (addSegments [] (Text.splitBy (isSlash web) (if isSlash web c then rest else path)))

/-- The path of a text behind the host, and the query and the fragment behind it. -/
def cut (text : List Char) : List Char × Option (List Char) × Option (List Char) :=
  let (front, fragment) := match text.span (· ≠ '#') with
    | (front, _ :: fragment) => (front, some fragment)
    | (front, []) => (front, none)
  match front.span (· ≠ '?') with
  | (path, _ :: query) => (path, some query, fragment)
  | (path, []) => (path, none, fragment)

/-- The URL with this host and the path, query and fragment of `rest`. -/
def finish (scheme : String) (web : Bool) (host : Option String) (port : Option Nat)
    (rest : List Char) (path : List Char → Path) : Url :=
  let (text, query, fragment) := cut rest
  ⟨scheme, host, port, path text,
    query.map fun q => String.ofList (percentEncode (querySpecial web) q),
    fragment.map fun f => String.ofList (percentEncode fragmentSpecial f)⟩

/-! ## Hosts and ports -/

/-- What stands in front of a colon outside of brackets, and what follows it. -/
def cutPort : (bracketed : Bool) → List Char → List Char × Option (List Char)
  | _, [] => ([], none)
  | bracketed, c :: rest =>
    if c = ':' && !bracketed then ([], some rest)
    else
      let inside := if c = '[' then true else if c = ']' then false else bracketed
      let (host, port) := cutPort inside rest
      (c :: host, port)

/-- A port, or nothing if it is the scheme's own. -/
def port? (own : Option Nat) (digits : List Char) : Option (Option Nat) :=
  if digits.isEmpty then some none
  else
    match Host.numberOf? 10 digits with
    | none => none
    | some n => if 65535 < n then none else some (if own = some n then none else some n)

/-- Reads what follows the slashes in front of a host. -/
def afterSlashes? (scheme : String) (web : Bool) (own : Option Nat) (text : List Char) :
    Option Url := do
  let authority := text.takeWhile fun c => !endsAuthority web c
  let rest := text.dropWhile fun c => !endsAuthority web c
  let named := (authority.reverse.takeWhile (· ≠ '@')).reverse
  let (hostText, portText) := cutPort false named
  if hostText.isEmpty && (web || authority.contains '@' || portText.isSome) then none
  let host ← if web then Host.parse? hostText else Host.parsePlain? hostText
  let port ← port? own (portText.getD [])
  return finish scheme web (some host) port rest (segmentsOf web)

/-- Reads what follows `file:`. This machine needs no name. -/
def afterFile? (text : List Char) : Option Url := do
  let (host, rest) ← match text with
    | a :: b :: rest =>
      if isSlash true a && isSlash true b then do
        let name := rest.takeWhile fun c => !endsAuthority true c
        let host ← if name.isEmpty then some "" else Host.parse? name
        let host := if host = "localhost" then "" else host
        some (host, rest.dropWhile fun c => !endsAuthority true c)
      else some ("", text)
    | _ => some ("", text)
  return finish "file" true (some host) none rest (segmentsOf true)

/-- Reads an absolute URL. -/
def parse? (text : String) : Option Url := do
  let (scheme, rest) ← scheme? (clean text.toList)
  match webSchemes.lookup scheme with
  | some none => afterFile? rest
  | some own => afterSlashes? scheme true own (rest.dropWhile (isSlash true))
  | none =>
    match rest with
    | '/' :: '/' :: rest => afterSlashes? scheme false none rest
    | '/' :: _ => return finish scheme false none none rest (segmentsOf false)
    | _ =>
      return finish scheme false none none rest fun path =>
        .plain (String.ofList (percentEncode [] path))

end SyntaxGateway.Url
