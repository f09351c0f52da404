import SyntaxGateway.Json.Shape
import SyntaxGateway.Language.Basic

/-!
# Languages from JSON
-/

namespace SyntaxGateway.Language

open Json (RecordField)

def Category.scan (depth : Nat) : Json.Scan Category :=
  Json.variant depth (Category.all.map fun c => (c.text, c))

def fields (depth : Nat) : List (RecordField Language) :=
  [.ofScan "name" .nowhere Json.string fun name l => { l with name := name },
    .ofScan "type" .nowhere (Category.scan depth) fun c l => { l with category := c }]

def scan (depth : Nat) : Json.Scan Language :=
  Json.record depth "Language" (fields (depth - 1)) unknown

end SyntaxGateway.Language
