/-!
# Styles

Colours and weights of text on a terminal. Where colours are not wanted, styles leave text as it is.
-/

namespace SyntaxGateway.Terminal

/-- What a piece of text is for. -/
inductive Style where
  | banner
  | ok
  | failure
  | label
  | marker
deriving DecidableEq, Repr

namespace Style

/-- The attributes of a style, as terminals number them. -/
def attributes : Style → String
  | .banner => "36;1"
  | .ok => "32;1"
  | .failure => "31;1"
  | .label => "37;2"
  | .marker => "35"

/-- Text in a style. -/
def apply (s : Style) (color : Bool) (text : String) : String :=
  if color then s!"\x1b[{s.attributes}m{text}\x1b[0m" else text

theorem apply_plain (s : Style) (text : String) : s.apply false text = text := rfl

end Style

end SyntaxGateway.Terminal
