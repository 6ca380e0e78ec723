set_option autoImplicit false

/-! # Table rows

A row has at least one cell. -/

namespace FeatureFile

/-- The cells of one table row. -/
structure Row where
  cells : List String
  nonempty : cells ≠ []
deriving DecidableEq, Repr

namespace Row

@[ext] theorem ext {r s : Row} (h : r.cells = s.cells) : r = s := by
  cases r; cases s; cases h; rfl

/-- A row of the given cells, if there is at least one. -/
def ofCells? (cells : List String) : Option Row :=
  if h : cells ≠ [] then some ⟨cells, h⟩ else none

/-- The number of cells. -/
def width (row : Row) : Nat := row.cells.length

/-- The row as a line of a table, `| a | b |`; bars inside cells are not escaped. -/
def text (row : Row) : String := "| " ++ String.intercalate " | " row.cells ++ " |"

/-- The cell at a position; a negative position counts from the end. -/
def cellAt? (row : Row) (index : Int) : Option String :=
  let position := if index < 0 then index + row.width else index
  if position < 0 then none else row.cells[position.toNat]?

end Row

end FeatureFile
