/-
  DeclGraph — tables on the screen.

  A table has columns, and a column is as wide as its widest cell.  A cell with
  several lines makes its row as high.

  * `Grid.boxed` draws a table with a title, a header and lines;
  * `Grid.bare` draws the rows alone.
-/
import DeclGraph.Text.Width

namespace DeclGraph

/-- Where the text of a column stands. -/
inductive Alignment where
  | left
  | right
deriving DecidableEq, Inhabited, Repr

/-- A column of a table. -/
structure Column where
  header : String := ""
  alignment : Alignment := .left
deriving DecidableEq, Inhabited, Repr

/-- A table. -/
structure Grid where
  columns : List Column
  rows : List (List String)
deriving DecidableEq, Inhabited, Repr

/-! ## Cells -/

/-- The lines of a cell. -/
def cellLines (cell : String) : List String :=
  (Text.splitAtChar '\n' cell.toList).map String.ofList

/-- The width of a cell. -/
def cellWidth (cell : String) : Nat := ((cellLines cell).map Text.width).foldl max 0

/-- A line of a cell, filled up to a width. -/
def Alignment.fill (a : Alignment) (width : Nat) (line : String) : String :=
  match a with
  | left => line ++ Text.spaces (width - Text.width line)
  | right =>
    let text := String.ofList (Text.dropEndWhile Text.isBlank line.toList)
    Text.spaces (width - Text.width text) ++ text

/-- A line in the middle of a width; what cannot be halved goes to the right. -/
def centred (width : Nat) (line : String) : String :=
  let space := width - Text.width line
  Text.spaces (space / 2) ++ line ++ Text.spaces (space - space / 2)

namespace Grid

/-! ## Columns -/

/-- The cells of a column, without its header. -/
def cellsAt (g : Grid) (i : Nat) : List String := g.rows.map fun row => row.getD i ""

/-- The columns with the widths of their widest cells. -/
def columnWidths (headed : Bool) (g : Grid) : List (Column × Nat) :=
  g.columns.mapIdx fun i c =>
    (c, (((if headed then [c.header] else []) ++ g.cellsAt i).map cellWidth).foldl max 0)

/-! ## Rows -/

/-- The lines of a row: `gap` spaces stand around every cell, and `joined` puts
    the cells of a line together. -/
def rowLines (columns : List (Column × Nat)) (gap : Nat) (joined : List String → String)
    (row : List String) : List String :=
  let cells := row.map cellLines
  let height := (cells.map List.length).foldl max 1
  (List.range height).map fun i =>
    joined ((columns.zip cells).map fun ((c, width), lines) =>
      Text.spaces gap ++ c.alignment.fill width (lines.getD i "") ++ Text.spaces gap)

/-- A row between vertical lines. -/
def barred (bar : String) (cells : List String) : String := bar ++ bar.intercalate cells ++ bar

/-- A horizontal line. -/
def ruler (first line crossing last : String) (columns : List (Column × Nat)) : String :=
  first ++ crossing.intercalate (columns.map fun (_, width) =>
    String.join (List.replicate (width + 2) line)) ++ last

/-! ## Tables -/

/-- A table with lines around its cells, below its title. -/
def boxed (title : String) (g : Grid) : List String :=
  let columns := g.columnWidths true
  let width := columns.foldl (fun total (_, width) => total + width + 3) 1
  (cellLines title).map (centred width) ++ [ruler "┏" "━" "┳" "┓" columns] ++
    rowLines columns 1 (barred "┃") (g.columns.map Column.header) ++
    [ruler "┡" "━" "╇" "┩" columns] ++ g.rows.flatMap (rowLines columns 1 (barred "│")) ++
    [ruler "└" "─" "┴" "┘" columns]

/-- The rows of a table without header and lines. -/
def bare (g : Grid) : List String := g.rows.flatMap (rowLines (g.columnWidths false) 2 String.join)

end Grid

end DeclGraph
