import BurnAfterRead.Text.Width

/-!
# Tables of text

Tables with two columns, drawn with hyphens, bars and plus signs. A column is as wide as its widest
line, and a cell of several lines makes its row as high.
-/

namespace BurnAfterRead.Text.Table

/-- Lines that are filled up with blanks to a common width. -/
def pad (columns : Nat) (cs : List Char) : List Char :=
  cs ++ List.replicate (columns - width cs) ' '

/-- The lines of a cell. -/
def cellLines (cell : String) : List (List Char) := cell.toList.splitOn '\n'

/-- The width of the widest line of some cells. -/
def cellWidth (cells : List String) : Nat :=
  ((cells.flatMap cellLines).map width).foldl max 0

/-- The lines of a row. -/
def rowLines (left right : Nat) (row : String × String) : List String :=
  let a := cellLines row.1
  let b := cellLines row.2
  (List.range (max a.length b.length)).map fun i =>
    String.ofList
      (['|', ' '] ++ pad left (a.getD i []) ++ [' ', '|', ' '] ++ pad right (b.getD i []) ++ [' ', '|'])

/-- A line between rows. -/
def rule (edge line cross : Char) (left right : Nat) : String :=
  String.ofList ([edge] ++ List.replicate (left + 2) line ++ [cross] ++
    List.replicate (right + 2) line ++ [edge])

/-- The lines of a table with a header. -/
def draw (header : String × String) (rows : List (String × String)) : List String :=
  let all := header :: rows
  let left := cellWidth (all.map (·.1))
  let right := cellWidth (all.map (·.2))
  let border := rule '+' '-' '+' left right
  let drawn := (rows.map (rowLines left right)).intersperse [rule '|' '-' '+' left right]
  [border] ++ rowLines left right header ++ [rule '+' '=' '=' left right] ++ drawn.flatten ++ [border]

end BurnAfterRead.Text.Table
