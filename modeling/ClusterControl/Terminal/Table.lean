import ClusterControl.Text.Glyph

/-!
# Tables

A table is drawn with a rounded frame and one rule under its header.  Every column is as wide as its
widest cell, a cell may have several lines, and text starts at the left with a blank on each side.
-/

namespace ClusterControl.Terminal

/-- A header and rows of as many cells. -/
structure Table where
  header : List String
  rows : List (List String)
  deriving DecidableEq, Repr

namespace Table

def cellLines (cell : String) : List String := cell.splitOn "\n"

/-- The width of a cell's widest line. -/
def cellWidth (cell : String) : Nat := ((cellLines cell).map Text.width).foldl max 0

/-- The width of each column. -/
def columns (t : Table) : List Nat :=
  t.rows.foldl (fun ws row => List.zipWith max ws (row.map cellWidth)) (t.header.map cellWidth)

/-- A line of a cell, filled up to the width of its column. -/
def pad (width : Nat) (line : String) : String :=
  " " ++ line ++ String.ofList (List.replicate (width - Text.width line) ' ') ++ " "

/-- The lines of one row; cells with fewer lines are filled up with empty ones. -/
def rowLines (widths : List Nat) (row : List String) : List String :=
  let cells := row.map cellLines
  let height := (cells.map List.length).foldl max 0
  (List.range height).map fun i =>
    "│" ++ "│".intercalate (List.zipWith (fun w c => pad w (c.getD i "")) widths cells) ++ "│"

/-- A horizontal rule with the given corners and crossings. -/
def rule (left cross right : String) (widths : List Nat) : String :=
  left ++ cross.intercalate (widths.map fun w => String.ofList (List.replicate (w + 2) '─')) ++ right

def render (t : Table) : List String :=
  let ws := t.columns
  [rule "╭" "┬" "╮" ws] ++ rowLines ws t.header ++ [rule "├" "┼" "┤" ws]
    ++ t.rows.flatMap (rowLines ws) ++ [rule "╰" "┴" "╯" ws]

end Table

end ClusterControl.Terminal
