import NameBinding.Text.Split
import NameBinding.Text.Width

set_option autoImplicit false

/-!
# Tables

A table is drawn with thin lines and rounded corners, one line below the heads and
none between the rows.  Every column is as wide as its widest cell, with a blank
on either side; a cell may have several lines, which start at the top of its row.
-/

namespace NameBinding.Text

/-- A table of texts: its heads and its rows, all of the same length. -/
structure Table where
  heads : List String
  rows : List (List String)
  deriving DecidableEq, Repr, Inhabited

namespace Table

/-! ## Sizes -/

/-- The lines of a cell. -/
def cellLines (cell : String) : List (List Char) := split ['\n'] cell.toList

/-- The columns that a cell takes. -/
def cellWidth (cell : String) : Nat := ((cellLines cell).map width).foldl max 0

/-- The columns that each column of the table takes, blanks at the sides not counted. -/
def columnWidths (t : Table) : List Nat :=
  t.rows.foldl (fun widths row => List.zipWith max widths (row.map cellWidth))
    (t.heads.map cellWidth)

/-! ## Drawing -/

/-- A line of a cell, filled up with blanks. -/
def padded (columns : Nat) (line : List Char) : List Char :=
  ' ' :: line ++ List.replicate (columns - width line) ' ' ++ [' ']

/-- A horizontal line with the given joints. -/
def rule (widths : List Nat) (left joint right : Char) : List Char :=
  left :: join [joint] (widths.map fun w => List.replicate (w + 2) '─') ++ [right]

/-- How many lines a row takes. -/
def rowHeight (row : List String) : Nat :=
  (row.map fun cell => (cellLines cell).length).foldl max 0

/-- The lines of a row. -/
def rowLines (widths : List Nat) (row : List String) : List (List Char) :=
  let cells := row.map cellLines
  (List.range (rowHeight row)).map fun i =>
    let line := List.zipWith (fun w cell => padded w (cell.getD i [])) widths cells
    '│' :: join ['│'] line ++ ['│']

/-- The lines of the table; none if it has no rows. -/
def lines (t : Table) : List String :=
  let widths := t.columnWidths
  if t.rows.isEmpty then []
  else
    ([rule widths '╭' '┬' '╮'] ++ rowLines widths t.heads ++ [rule widths '├' '┼' '┤'] ++
      t.rows.flatMap (rowLines widths) ++ [rule widths '╰' '┴' '╯']).map String.ofList

/-- The drawn table. -/
def text (t : Table) : String := joinTexts "\n" t.lines

end Table

end NameBinding.Text
