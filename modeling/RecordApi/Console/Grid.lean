import RecordApi.Console.Markup
import RecordApi.Console.Wrap

/-!
# Grids

Cells in columns, with a blank on both sides of each cell.  A column is as wide as its
widest cell; where all columns together exceed the console, the widest ones give way.
-/

namespace RecordApi
namespace Console

structure GridColumn where
  header : String := ""
  /-- The width of a column that does not follow its cells. -/
  width : Option Nat := none
  /-- Cells may break into several lines. -/
  wraps : Bool := true

/-- Cells hold markup.  A row may have fewer cells than there are columns, or more. -/
structure Grid where
  columns : List GridColumn
  rows : List (List String)
  showsHeader : Bool := true

namespace Grid

/-- Divides to the nearest whole number, and a half to the even one. -/
def roundedQuotient (n d : Nat) : Nat :=
  let q := n / d
  let twice := 2 * (n % d)
  if d < twice || (twice == d && q % 2 == 1) then q + 1 else q

/-- Takes a total off the marked widths in equal shares of at most `most`. -/
def reduceMarked (most : Nat) : Nat → Nat → List (Bool × Nat) → List Nat
  | _, _, [] => []
  | total, shares, (true, width) :: rest =>
      let taken := min most (roundedQuotient total shares)
      (width - taken) :: reduceMarked most (total - taken) (shares - 1) rest
  | total, shares, (false, width) :: rest => width :: reduceMarked most total shares rest

def total (widths : List (Bool × Nat)) : Nat :=
  widths.foldr (fun w n => w.2 + n) 0

/-- Brings the widths down to a sum of `limit`, the widest columns that wrap first. -/
def collapse (limit : Nat) : Nat → List (Bool × Nat) → List (Bool × Nat)
  | 0, widths => widths
  | fuel + 1, widths =>
      let total := total widths
      let widest := ((widths.filter (·.1)).map (·.2)).foldl max 0
      let next := ((widths.filter fun w => w.1 && w.2 != widest).map (·.2)).foldl max 0
      if total ≤ limit || widest = 0 then widths
      else
        let marked := widths.map fun w => (w.1 && w.2 == widest, w.2)
        let reduced := reduceMarked (min (total - limit) (widest - next)) (total - limit)
          (marked.filter (·.1)).length marked
        collapse limit fuel ((widths.map (·.1)).zip reduced)

/-- Characters that end a line when the width of a text is measured. -/
def endsLine (c : Char) : Bool :=
  [0x0a, 0x1c, 0x1d, 0x1e, 0x85, 0x2028, 0x2029].contains c.toNat

/-- The width of the widest line of a text. -/
def measure (cs : List Char) : Nat :=
  ((cs.splitBy fun a b => !endsLine a && !endsLine b).map Text.width).foldl max 0

/-- The width of a column among other columns on a console of `n` columns. -/
def columnWidth (n : Nat) (column : GridColumn) (cells : List (List Char)) : Nat :=
  match column.width with
  | some width => min n (width + 2)
  | none => min n ((cells.map measure).foldl max 0 + 2)

def widths (n : Nat) (columns : List GridColumn) (cells : List (List (List Char))) : List Nat :=
  let natural := (columns.zip cells).map fun (column, cells) =>
    (column.wraps && column.width.isNone, columnWidth n column cells)
  let fitted := collapse n (total natural) natural
  let excess := total fitted - n
  if excess = 0 then fitted.map (·.2)
  else reduceMarked excess excess fitted.length (fitted.map fun w => (true, w.2))

/-- The lines of a cell, with a blank on both sides. -/
def cellLines (column : GridColumn) (width : Nat) (cell : List Char) : List (List Char) :=
  if width ≤ 2 then []
  else
    let lines :=
      if column.wraps then wrap .ellipsis (width - 2) cell
      else cutLines .ellipsis (width - 2) cell
    lines.map fun line => ' ' :: fit (width - 2) line ++ [' ']

/-- Fills the lines of a cell up to a height; a header stands at the bottom of its row. -/
def stretch (header : Bool) (height width : Nat) (lines : List (List Char)) : List (List Char) :=
  let missing := List.replicate (height - lines.length) (blanks width)
  if header then missing ++ lines else lines ++ missing

def rowLines (columns : List GridColumn) (widths : List Nat) (header : Bool)
    (cells : List (List Char)) : List (List Char) :=
  let lines := (columns.zip (widths.zip cells)).map fun (column, width, cell) =>
    (width, cellLines column width cell)
  let height := max 1 ((lines.map fun cell => cell.2.length).foldl max 0)
  let stretched := lines.map fun (width, lines) => stretch header height width lines
  (List.range height).map fun i => stretched.flatMap fun lines => lines.getD i []

/-- The columns, with those that only rows have. -/
def allColumns (grid : Grid) : List GridColumn :=
  let count := (grid.rows.map List.length).foldl max 0
  grid.columns ++ List.replicate (count - grid.columns.length) { header := "" }

/-- The text of every cell, row by row; none if the markup of a cell is broken. -/
def cells? (grid : Grid) (columns : List GridColumn) : Option (List (List (List Char))) :=
  let header := if grid.showsHeader then [columns.map (·.header)] else []
  (header ++ grid.rows).mapM fun row =>
    (row ++ List.replicate (columns.length - row.length) "").mapM Markup.plain?

def lines? (n : Nat) (grid : Grid) : Option (List (List Char)) := do
  let columns := grid.allColumns
  let rows ← grid.cells? columns
  if columns.isEmpty then return [[]]
  let byColumn := (List.range columns.length).map fun i => rows.map fun row => row.getD i []
  let widths := widths n columns byColumn
  let numbered := (List.range rows.length).zip rows
  return numbered.flatMap fun (i, row) =>
    (rowLines columns widths (grid.showsHeader && i == 0) row).map (takeColumns n)

end Grid
end Console
end RecordApi
