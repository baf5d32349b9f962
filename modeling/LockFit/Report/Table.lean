import LockFit.Report.Column

/-
  Tables of characters.
  A column is as wide as its widest cell, with a space on either side; a row is as high as its
  highest cell. A title is broken into lines at the width of the table, at spaces where it can be,
  and every line of it is centred.
-/

namespace LockFit.Report

/-- The characters that a horizontal rule is drawn with: its left end, its run, what stands
    between columns, and its right end. -/
structure Rule where
  left : Code
  run : Code
  between : Code
  right : Code

/-- A line of cells: its ends and what stands between columns. -/
structure Wall where
  outer : Code
  between : Code

/-- The lines of a title over a table of the width. -/
def titleLines (room : Nat) (title : Text) : List (List Code) :=
  (breakLine true room title.toList).map fun line =>
    centre room (Text.dropEndWhile Text.isBlank line)

/-- The widths of the columns of rows of cells, without the spaces around the cells. -/
def columnWidths : List (List (List Code)) → List Nat
  | [] => []
  | row :: rows =>
    let widths := columnWidths rows
    let longest := row.mapIdx fun i cell => max (textWidth cell) (widths.getD i 0)
    longest ++ widths.drop longest.length

def ruleLine (r : Rule) (widths : List Nat) : List Code :=
  let runs := widths.map fun w => List.replicate (w + 2) r.run
  r.left :: [r.between].intercalate runs ++ [r.right]

def cellLine (w : Wall) (widths : List Nat) (cells : List (List Code)) : List Code :=
  let padded := (cells.zip widths).map fun (cell, room) =>
    spaces 1 ++ padRight room cell ++ spaces 1
  w.outer :: [w.between].intercalate padded ++ [w.outer]

/-- The lines of a row of cells. -/
def rowLines (w : Wall) (widths : List Nat) (cells : List (List Code)) : List (List Code) :=
  let columns := (cells.zip widths).map fun (cell, room) => columnLines room cell
  let height := (columns.map List.length).foldl max 0
  (List.range height).map fun i => cellLine w widths (columns.map fun ls => ls.getD i [])

def lightTop : Rule := ⟨'┌', '─', '┬', '┐'⟩
def lightBottom : Rule := ⟨'└', '─', '┴', '┘'⟩
def heavyTop : Rule := ⟨'┏', '━', '┳', '┓'⟩
def headBottom : Rule := ⟨'┡', '━', '╇', '┩'⟩
def lightWall : Wall := ⟨'│', '│'⟩
def heavyWall : Wall := ⟨'┃', '┃'⟩

/-- The whole width of a table. -/
def tableWidth (widths : List Nat) : Nat := (widths.map (· + 3)).foldr (· + ·) 1

/-- The characters of a cell that are printed. -/
def cellOf (text : Text) : List Code := text.toList.filter fun c => !movesPrinting c

/-- A table with a title, and a head in heavy lines if it has one. -/
def table (title : Text) (head : List Text) (rows : List (List Text)) : List (List Code) :=
  let head := head.map cellOf
  let rows := rows.map (·.map cellOf)
  let widths := columnWidths (head :: rows)
  let body := rows.flatMap (rowLines lightWall widths)
  let top := if head.isEmpty then [ruleLine lightTop widths]
    else [ruleLine heavyTop widths, cellLine heavyWall widths head, ruleLine headBottom widths]
  titleLines (tableWidth widths) title ++ top ++ body ++ [ruleLine lightBottom widths]

end LockFit.Report
