import MarkerBoard.Render.Lines
import MarkerBoard.Render.Markup

/-!
# Tables

A table has a row of headers and a frame, heavy around the headers. Each column is as wide as its
widest cell. A title stands centred above the table.
-/
namespace MarkerBoard.Render

/-- A column of a table. -/
structure TableColumn where
  header : Text
  /-- Cells stand at the right. -/
  right : Bool
  /-- Cells may be broken into several lines. -/
  breaks : Bool

/-- A table whose cells hold markup. -/
structure Table where
  title : Option Text
  columns : List TableColumn
  rows : List (List Text)

/-- The strokes of a horizontal line of a frame. -/
structure Rule where
  left : Char
  stroke : Char
  cross : Char
  right : Char

namespace Rule

/-- Above the headers. -/
def top : Rule := ⟨'┏', '━', '┳', '┓'⟩

/-- Below the headers. -/
def middle : Rule := ⟨'┡', '━', '╇', '┩'⟩

/-- Below the last row. -/
def bottom : Rule := ⟨'└', '─', '┴', '┘'⟩

/-- The line over columns of the given widths. -/
def draw (r : Rule) (widths : List Nat) : Text :=
  r.left :: Text.join [r.cross] (widths.map fun w => List.replicate (w + 2) r.stroke) ++ [r.right]

end Rule

namespace Table

/-- The character ends a line. -/
def isLineBreak (c : Char) : Bool :=
  c == '\n' || (decide ('\x1c' ≤ c) && decide (c ≤ '\x1e')) || c == '\x85' || c == '\u2028' ||
    c == '\u2029'

/-- The width of a cell, which is that of its widest line. -/
def cellWidth (t : Text) : Nat :=
  ((Text.splitWhere isLineBreak t).map width).foldl max 0

/-- The widths of the columns of plain rows. -/
def columnWidths (columns : List TableColumn) (rows : List (List Text)) : List Nat :=
  (List.range columns.length).map fun n =>
    (rows.map fun row => cellWidth (row.getD n [])).foldl max 0

/-- A line of a cell, filled up with spaces. -/
def pad (right : Bool) (limit : Nat) (t : Text) : Text :=
  let t := if right then Text.trimEnd t else t
  let fill : Text := List.replicate (limit - width t) ' '
  if right then fill ++ t else t ++ fill

/-- A line over the columns between upright strokes. -/
def drawLine (stroke : Char) (cells : List Text) : Text :=
  stroke :: ' ' :: Text.join [' ', stroke, ' '] cells ++ [' ', stroke]

/-- The lines of a plain row. -/
def drawRow (stroke : Char) (columns : List TableColumn) (widths : List Nat) (row : List Text) :
    List Text :=
  let cells := (columns.zip (widths.zip row)).map fun (c, w, t) => (c, w, cellLines w c.breaks t)
  let height := (cells.map fun (_, _, lines) => lines.length).foldl max 1
  (List.range height).map fun n =>
    drawLine stroke (cells.map fun (c, w, lines) => pad c.right w (lines.getD n []))

/-- The lines of a table, or the inside of a tag that closes nothing. -/
def draw (t : Table) : Except Text (List Text) := do
  let headers ← t.columns.mapM fun c => Markup.shown c.header
  let rows ← t.rows.mapM fun row => row.mapM Markup.shown
  let widths := columnWidths t.columns (headers :: rows)
  let total := widths.foldr (fun w n => w + 3 + n) 1
  let title := t.title.toList.map fun title =>
    List.replicate ((total - width title) / 2) ' ' ++ title
  pure (title ++ [Rule.top.draw widths] ++ drawRow '┃' t.columns widths headers ++
    [Rule.middle.draw widths] ++ rows.flatMap (drawRow '│' t.columns widths) ++
    [Rule.bottom.draw widths])

end Table
end MarkerBoard.Render
