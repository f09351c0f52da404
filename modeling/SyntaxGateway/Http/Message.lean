import SyntaxGateway.Text.Utf8

/-!
# Requests and responses

The messages of HTTP as far as the gateway sees them: connections, versions and lengths are somebody
else's business.
-/

namespace SyntaxGateway.Http

structure Request where
  method : String
  /-- The path, with the query behind it if there is one. -/
  target : String
  headers : List (String × String)
  body : Bytes

structure Response where
  status : Nat
  headers : List (String × String)
  body : String
deriving DecidableEq, Repr

end SyntaxGateway.Http
