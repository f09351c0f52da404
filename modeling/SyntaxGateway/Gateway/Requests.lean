import SyntaxGateway.Filter
import SyntaxGateway.Json.Shape
import SyntaxGateway.Language.Reading
import SyntaxGateway.Parse

/-!
# The bodies of requests

What clients send as JSON to be detected, parsed or filtered, and what they get back for a detected
language. Fields that may be left out may also be `null`.
-/

namespace SyntaxGateway

open Json (RecordField)

/-! ## Detecting -/

/-- A source whose language is asked for. -/
structure DetectRequest where
  content : String
  fileName : Option String
deriving DecidableEq, Repr

namespace DetectRequest

def fields : List (RecordField DetectRequest) :=
  [.ofScan "content" .nowhere Json.string fun content r => { r with content := content },
    .ofScan "filename" .anywhere (Json.nullable Json.string) fun name r =>
      { r with fileName := name }]

def scan (depth : Nat) : Json.Scan DetectRequest :=
  Json.record depth "DetectLangRequest" fields ⟨"", none⟩

end DetectRequest

/-- The language that was detected. -/
structure DetectResponse where
  language : String
  category : Language.Category
deriving DecidableEq, Repr

namespace DetectResponse

def ofLanguage (l : Language) : DetectResponse := ⟨l.name, l.category⟩

def toJson (r : DetectResponse) : String :=
  Json.object [("language", Json.quote r.language), ("type", Json.quote r.category.text)]

def fields (depth : Nat) : List (RecordField DetectResponse) :=
  [.ofScan "language" .nowhere Json.string fun language r => { r with language := language },
    .ofScan "type" .nowhere (Language.Category.scan depth) fun c r => { r with category := c }]

def scan (depth : Nat) : Json.Scan DetectResponse :=
  Json.record depth "DetectLangResponse" (fields (depth - 1)) ⟨"", .other⟩

end DetectResponse

/-! ## Parsing -/

namespace ParseRequest

/-- A text that may be missing. -/
def optionalField (name : String) (set : Option String → ParseRequest → ParseRequest) :
    RecordField ParseRequest :=
  .ofScan name .anywhere (Json.nullable Json.string) set

def fields : List (RecordField ParseRequest) :=
  [.ofScan "content" .nowhere Json.string fun content r => { r with content := content },
    optionalField "filename" fun fileName r => { r with fileName := fileName },
    optionalField "language" fun language r => { r with language := language },
    optionalField "mode" fun mode r => { r with mode := mode },
    optionalField "filter" fun filter r => { r with filter := filter }]

def scan (depth : Nat) : Json.Scan ParseRequest :=
  Json.record depth "ParseRequest" fields ⟨"", none, none, none, none⟩

end ParseRequest

/-! ## Filtering -/

namespace FilterRequest

def fields : List (RecordField FilterRequest) :=
  [.ofScan "protobufs" .nowhere Json.string fun batch r => { r with batch := batch },
    .ofScan "filter" .nowhere Json.string fun query r => { r with query := query }]

def scan (depth : Nat) : Json.Scan FilterRequest :=
  Json.record depth "FilterRequest" fields ⟨"", ""⟩

end FilterRequest

end SyntaxGateway
