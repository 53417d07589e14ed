import SearchClient.Display.Width
import SearchClient.Text.Split

/-!
# Grids

A grid has a header and rows, and a cell for each column in each of them. `Grid.lines` sets it out
with a rule above and below, a double rule under the header and a rule between each two rows. A
column is as wide as its widest line, and never narrower than one cell of the terminal.
-/

set_option autoImplicit false
set_option relaxedAutoImplicit false

namespace SearchClient.Display

/-- On which side of its column a cell stands. -/
inductive Side where
  | left
  | right
  deriving DecidableEq, Repr, Inhabited

structure Cell where
  text : String
  side : Side := .left
  deriving DecidableEq, Repr, Inhabited

instance : Coe String Cell := ⟨fun text ↦ { text := text }⟩

structure Grid where
  header : List String
  rows : List (List Cell)
  deriving DecidableEq, Repr, Inhabited

/-- The lines of a cell, at least one. -/
def Cell.lines (c : Cell) : List String := (Text.split '\n' c.text.toList).map String.ofList

/-- The width of a cell. -/
def Cell.width (c : Cell) : Nat := (c.lines.map Display.width).foldl max 1

namespace Grid

/-- Blanks. -/
def blanks (count : Nat) : String := String.ofList (List.replicate count ' ')

/-- A line of a cell in its column, a blank on either side. -/
def place (side : Side) (columnWidth : Nat) (line : String) : String :=
  let room := blanks (columnWidth - Display.width line)
  match side with
  | .left => " " ++ line ++ room ++ " "
  | .right => " " ++ room ++ line ++ " "

/-- The width of each column, given the cells of each row. -/
def columnWidths : List (List Cell) → List Nat
  | [] => []
  | row :: rows =>
    let below := columnWidths rows
    let here := row.map Cell.width
    List.zipWith max (here ++ List.replicate (below.length - here.length) 1)
      (below ++ List.replicate (here.length - below.length) 1)

/-- The lines of a row: as many as its highest cell has, blank where a cell has no more. -/
def rowLines (widths : List Nat) (row : List Cell) : List String :=
  let height := (row.map fun c ↦ c.lines.length).foldl max 0
  (List.range height).map fun number ↦
    " ".intercalate ((row.zip widths).map fun (c, columnWidth) ↦
      place c.side columnWidth (c.lines[number]?.getD ""))

/-- A rule over all columns. -/
def rule (stroke : Char) (widths : List Nat) : String :=
  String.ofList (List.replicate ((widths.map (· + 3)).foldr (· + ·) 0 - 1) stroke)

/-- The header as a row. -/
def headerRow (g : Grid) : List Cell := g.header.map fun text ↦ { text := text }

/-- The grid, line by line. -/
def lines (g : Grid) : List String :=
  let widths := columnWidths (g.headerRow :: g.rows)
  let line := rule '─' widths
  let body := (g.rows.map (rowLines widths)).intersperse [line]
  [line] ++ rowLines widths g.headerRow ++ [rule '═' widths] ++ body.flatten ++ [line]

/-- The grid as a text. -/
def text (g : Grid) : String := "\n".intercalate g.lines

end Grid

end SearchClient.Display
