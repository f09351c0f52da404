/-!
# Media types

Whether a content type announces JSON: `application/json`, or a subtype of `application` whose last
`+` stands behind or in front of `json`. Letters may be large or small, and parameters may follow.
-/

namespace SyntaxGateway.Http

/-- A character of a token: a letter, a digit or one of a few marks. -/
def isToken (c : Char) : Bool :=
  c.isAlphanum || "!#$%&+-.^_|~*".toList.contains c || c.toNat = 0x27 || c.toNat = 0x60

/-- What may stand between the quotes of a parameter. -/
def isQuotable (c : Char) : Bool := 0x20 ≤ c.toNat && c.toNat < 0x7F

/-- What follows the quotes of a parameter: more parameters, or nothing. -/
def behindQuotes? (text : List Char) : Option (List Char) :=
  match text.dropWhile (· = ' ') with
  | [] => some []
  | ';' :: rest => some rest
  | _ => none

/-- What follows the value in front, which may be quoted: more parameters, or nothing. -/
def behindValue? (text : List Char) : Option (List Char) :=
  match text with
  | '"' :: c :: rest =>
    if isQuotable c then
      match rest.dropWhile fun c => isQuotable c && c ≠ '"' with
      | '"' :: rest => behindQuotes? rest
      | _ => none
    else none
  | _ =>
    match text.dropWhile isToken with
    | [] => some []
    | ';' :: rest => if (text.takeWhile isToken).isEmpty then none else some rest
    | _ => none

/-- `text` is a list of parameters. Each takes a character or more. -/
def areParameters : (fuel : Nat) → (text : List Char) → Bool
  | 0, _ => false
  | fuel + 1, text =>
    match text.dropWhile (· = ' ') with
    | [] => true
    | text =>
      match text.takeWhile isToken, text.dropWhile isToken with
      | _ :: _, '=' :: value =>
        match behindValue? value with
        | some rest => areParameters fuel rest
        | none => false
      | _, _ => false

/-- The subtype and the suffix behind its last `+`. -/
def splitSuffix (subtype : List Char) : List Char × Option (List Char) :=
  if (subtype.drop 1).contains '+' then
    let suffix := (subtype.reverse.takeWhile (· ≠ '+')).reverse
    (subtype.take (subtype.length - suffix.length - 1), some suffix)
  else (subtype, none)

/-- The content type announces JSON. -/
def isJson (contentType : String) : Bool :=
  let text := contentType.toList.map Char.toLower
  match text.dropWhile isToken with
  | '/' :: rest =>
    let (subtype, suffix) := splitSuffix (rest.takeWhile isToken)
    let json := "json".toList
    text.takeWhile isToken = "application".toList && (subtype = json || suffix = some json) &&
      (match rest.dropWhile isToken with
        | [] => true
        | ';' :: parameters => areParameters (parameters.length + 1) parameters
        | _ => false)
  | _ => false

end SyntaxGateway.Http
