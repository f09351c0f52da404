/-!
# URLs

The parts of an absolute URL and its written form. Schemes of the web name a host in front of a path
of segments; any other scheme may have a path that is plain text. User names and passwords are not
kept.
-/

namespace SyntaxGateway

namespace Url

inductive Path where
  | segments (list : List String)
  | plain (text : String)
deriving DecidableEq, Repr

def Path.text : Path → String
  | .segments list => String.join (list.map ("/" ++ ·))
  | .plain text => text

end Url

structure Url where
  scheme : String
  /-- The host as it is written. The empty one stands for this machine. -/
  host : Option String
  /-- The port, unless it is the scheme's own. -/
  port : Option Nat
  path : Url.Path
  query : Option String
  fragment : Option String
deriving DecidableEq, Repr

namespace Url

/-- What stands between the scheme and the path. A path that starts with two slashes must not be
taken for a host. -/
def authority (u : Url) : String :=
  match u.host with
  | some host => "//" ++ host ++ (u.port.map fun n => s!":{n}").getD ""
  | none => if u.path.text.startsWith "//" then "/." else ""

/-- The written form. -/
def text (u : Url) : String :=
  u.scheme ++ ":" ++ u.authority ++ u.path.text ++ (u.query.map ("?" ++ ·)).getD "" ++
    (u.fragment.map ("#" ++ ·)).getD ""

/-- What a request for the URL names: the path and the query. -/
def target (u : Url) : String := u.path.text ++ (u.query.map ("?" ++ ·)).getD ""

/-- The schemes of the web and their ports. -/
def webSchemes : List (String × Option Nat) :=
  [("http", some 80), ("https", some 443), ("ws", some 80), ("wss", some 443), ("ftp", some 21),
    ("file", none)]

end Url

end SyntaxGateway
