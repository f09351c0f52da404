import SyntaxGateway.Text.Split
import SyntaxGateway.Text.Width

/-!
# Tables

Text in columns, framed by lines with round corners. The first row is the head, and a line divides
it from the others. A cell may have several lines; its row is as high as the highest of its cells.
-/

namespace SyntaxGateway.Terminal

namespace Table

/-- The lines of a cell. -/
def cellLines (cell : String) : List (List Char) := Text.splitBy (· = '\n') cell.toList

/-- The columns that a cell needs. -/
def cellWidth (cell : String) : Nat := ((cellLines cell).map Text.width).foldl max 0

/-- The columns that each column of the table needs, for rows of `count` cells. -/
def widths (count : Nat) (rows : List (List String)) : List Nat :=
  (List.range count).map fun i => (rows.map fun row => cellWidth (row.getD i "")).foldl max 0

/-- A line of a cell, filled up to a width, with a space at either side. -/
def padded (width : Nat) (line : List Char) : String :=
  String.ofList ([' '] ++ line ++ List.replicate (width - Text.width line) ' ' ++ [' '])

/-- The lines of a row. -/
def rowLines (widths : List Nat) (row : List String) : List String :=
  let cells := row.map cellLines
  let height := (cells.map (·.length)).foldl max 0
  (List.range height).map fun i =>
    let texts := List.zipWith (fun w lines => padded w (lines.getD i [])) widths cells
    "│" ++ "│".intercalate texts ++ "│"

/-- A line of the frame, from its left end, its crossings and its right end. -/
def rule (left crossing right : String) (widths : List Nat) : String :=
  left ++ crossing.intercalate (widths.map fun w => String.ofList (List.replicate (w + 2) '─')) ++
    right

/-- A table of rows below a head. -/
def render (head : List String) (rows : List (List String)) : String :=
  let ws := widths head.length (head :: rows)
  "\n".intercalate <|
    [rule "╭" "┬" "╮" ws] ++ rowLines ws head ++ [rule "├" "┼" "┤" ws] ++
      rows.flatMap (rowLines ws) ++ [rule "╰" "┴" "╯" ws]

end Table

end SyntaxGateway.Terminal
