import Linewise.Registry

/-!
# Aligned tables

A table is written as text whose cells end in tabs and whose rows end in line
feeds. A cell that is followed by another one in its row belongs to a column;
consecutive rows that reach a column share its width, which is that of the widest
cell and a gap. The last cell of a row belongs to no column and is not filled.

A row of a single cell, or a form feed, separates what stands above from what
stands below. Two bytes `0xFF` enclose text in which nothing ends a cell.

## Main definitions

* `Table.Cell`, `Table.Row` — the parts of a table.
* `Table.rows` — the rows of a text.
* `Table.columnWidth` — the width of a column at a row.
* `Table.align` — the text with its columns aligned.
* `transformsTable` — the table of the registered transformations.
-/

namespace Linewise

namespace Table

/-- **A cell**: its text and how many characters of it are shown. -/
structure Cell where
  /-- The text, markers included. -/
  text : Bytes
  /-- The number of characters; the markers of a protected stretch do not count. -/
  width : Int
deriving DecidableEq, Repr

/-- **A row of cells.** -/
structure Row where
  /-- The cells from left to right. -/
  cells : List Cell
  /-- What ends the row: nothing for the rest after the last terminator. -/
  terminated : Bool
  /-- A form feed ends it. -/
  formFeed : Bool
deriving DecidableEq, Repr

/-- The byte that begins and ends a stretch in which nothing ends a cell. -/
def marker : UInt8 := 0xFF

/-- **The state between two bytes of a table's text.** -/
structure Scan where
  /-- Finished rows, last first. -/
  rows : List Row := []
  /-- Finished cells of the current row, last first. -/
  cells : List Cell := []
  /-- The current cell, reversed. -/
  cell : Bytes := []
  /-- How many protected stretches the current cell has so far. -/
  stretches : Nat := 0
  /-- Inside a protected stretch. -/
  inside : Bool := false

namespace Scan

/-- The cell so far. -/
def current (scan : Scan) : Cell :=
  ⟨scan.cell.reverse, ((runes scan.cell.reverse).length : Int) - 2 * scan.stretches⟩

/-- Ends the current cell. -/
def endCell (scan : Scan) : Scan :=
  { rows := scan.rows, cells := scan.current :: scan.cells }

/-- Ends the current cell and the row. -/
def endRow (scan : Scan) (formFeed : Bool) : Scan :=
  { rows := ⟨(scan.current :: scan.cells).reverse, true, formFeed⟩ :: scan.rows }

/-- Takes one byte. -/
def step (scan : Scan) (b : UInt8) : Scan :=
  if scan.inside then
    { scan with
      cell := b :: scan.cell
      inside := b ≠ marker
      stretches := if b = marker then scan.stretches + 1 else scan.stretches }
  else if b = 0x09 || b = 0x0B then scan.endCell
  else if b = 0x0A || b = 0x0C then scan.endRow (b = 0x0C)
  else { scan with cell := b :: scan.cell, inside := b = marker }

/-- Ends the text. What stands after the last terminator is a row without one. -/
def finish (scan : Scan) : List Row :=
  let cells := if scan.cell.isEmpty then scan.cells else scan.current :: scan.cells
  (⟨cells.reverse, false, false⟩ :: scan.rows).reverse

end Scan

/-- **The rows of a text**, the last of them without a terminator and perhaps empty. -/
def rows (text : Bytes) : List Row :=
  (text.foldl Scan.step {}).finish

/-- Does the row separate what stands above from what stands below? -/
def Row.closes (row : Row) : Bool :=
  row.formFeed || row.cells.length = 1 && row.terminated

/-- The rows in groups, each but the last ending with a row that closes it. -/
def groups : List Row → List (List Row)
  | [] => []
  | row :: rest =>
    if row.closes then [row] :: groups rest
    else
      match groups rest with
      | [] => [[row]]
      | group :: others => (row :: group) :: others

/-- The number of spaces between two columns. -/
def gap : Int := 3

/-- The width of a row's cell in a column, if the row reaches it: a cell that is not the last. -/
def Row.reach? (column : Nat) (row : Row) : Option Int :=
  if column + 1 < row.cells.length then row.cells[column]?.map Cell.width else none

/-- The widest of the cells in a column, over the rows from the first one on that reach it. -/
def widest (column : Nat) : List Row → Int
  | [] => 0
  | row :: rest =>
    match row.reach? column with
    | some width => max (width + gap) (widest column rest)
    | none => 0

/-- **The width of a column at a row**, given the rows above it, nearest first, and the row with
those below it. -/
def columnWidth (column : Nat) (above below : List Row) : Int :=
  max (widest column above) (widest column below)

/-- A cell filled to a width. -/
def fill (cell : Cell) (width : Int) : Bytes :=
  cell.text ++ Bytes.spaces (width - cell.width).toNat

/-- The text of the cells from a column on: all but the last are filled. -/
def cellTexts (above below : List Row) : (column : Nat) → List Cell → Bytes
  | _, [] => []
  | _, [cell] => cell.text
  | column, cell :: rest =>
    fill cell (columnWidth column above below) ++ cellTexts above below (column + 1) rest

/-- The text of the rows of a group, given the rows above them, nearest first. -/
def groupText : (above : List Row) → List Row → Bytes
  | _, [] => []
  | above, row :: rest =>
    cellTexts above (row :: rest) 0 row.cells
      ++ (if row.terminated then [Bytes.lineFeed] else [])
      ++ groupText (row :: above) rest

/-- **The text with its columns aligned.** -/
def align (text : Bytes) : Bytes :=
  (groups (rows text)).flatMap (groupText [])

/-- The text of one row: cells with tabs between them. -/
def rowText (cells : List Bytes) : Bytes :=
  Bytes.join (utf8 "\t") cells ++ [Bytes.lineFeed]

end Table

/-- The row of a transformation: an asterisk marks the default. -/
def Registry.Info.row (defaultName : Bytes) (info : Registry.Info) : Bytes :=
  Table.rowText [info.name, if info.name = defaultName then utf8 "*" else [], info.description]

/-- **The table of transformations**, with the default marked. -/
def transformsTable (infos : List Registry.Info) (defaultName : Bytes) : Bytes :=
  Table.align (Table.rowText [utf8 "NAME", utf8 "DEFAULT", utf8 "DESCRIPTION"]
    ++ infos.flatMap (Registry.Info.row defaultName))

end Linewise
