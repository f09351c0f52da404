import SyntaxGateway.Json.Shape
import SyntaxGateway.Json.Writer
import SyntaxGateway.Settings.Basic

/-!
# Settings and JSON
-/

namespace SyntaxGateway.Settings

open Json (RecordField)

def toJson (s : Settings) : String :=
  Json.object
    [("host", Json.optional (s.host.map Json.quote)),
      ("port", Json.optional (s.port.map toString)),
      ("uast_url", Json.optional (s.serviceUrl.map Json.quote)),
      ("timeout_secs", Json.optional (s.timeoutSeconds.map toString))]

def fields : List (RecordField Settings) :=
  [.ofScan "host" .inObjects (Json.nullable Json.string) fun host s => { s with host := host },
    .ofScan "port" .inObjects (Json.nullable (Json.natural "u16" (Nat.pow 2 16))) fun port s =>
      { s with port := port },
    .ofScan "uast_url" .inObjects (Json.nullable Json.string) fun url s =>
      { s with serviceUrl := url },
    .ofScan "timeout_secs" .inObjects (Json.nullable (Json.natural "u64" (Nat.pow 2 64))) fun n s =>
      { s with timeoutSeconds := n }]

def scan (depth : Nat) : Json.Scan Settings := Json.record depth "UastgateConfig" fields empty

end SyntaxGateway.Settings
