import Spreadsheet.Number.Decimal

/-!
# Coordinates

A coordinate is a position of the grid, counted from zero. Its address names the column by letters
and the row by its number counted from one. A rectangle is given by two opposite corners, in any
order, and is listed row by row.
-/

set_option autoImplicit false

namespace Spreadsheet

structure Coordinate where
  row : Int
  column : Int
  deriving DecidableEq, Hashable, Repr, Inhabited

namespace Coordinate

/-- Row by row, and within a row from left to right. -/
def le (a b : Coordinate) : Bool :=
  a.row < b.row || (a.row == b.row && a.column ≤ b.column)

/-- The letters of the `n`-th column, counted from one: numerals with the digits `A` to `Z` worth
one to twenty-six. -/
def letters (n : Nat) : List Char :=
  if _h : n = 0 then [] else letters ((n - 1) / 26) ++ [Char.ofNat (65 + (n - 1) % 26)]
  termination_by n
  decreasing_by omega

/-- The letters of a column counted from zero. There are none before the first column. -/
def columnLetters (column : Int) : String := String.ofList (letters (column + 1).toNat)

/-- The address of a coordinate that lies in the grid. -/
def address (c : Coordinate) : String := columnLetters c.column ++ Decimal.intText (c.row + 1)

/-- A coordinate lies in the grid when neither part is negative. -/
def isInGrid (c : Coordinate) : Bool := 0 ≤ c.row && 0 ≤ c.column

/-- The whole numbers from `a` up to `b`, both included. -/
def span (a b : Int) : List Int := (List.range (b - a + 1).toNat).map fun (k : Nat) => a + k

/-- The coordinates of the rectangle between two corners, row by row. -/
def rectangle (a b : Coordinate) : List Coordinate :=
  (span (min a.row b.row) (max a.row b.row)).flatMap fun r =>
    (span (min a.column b.column) (max a.column b.column)).map fun c => ⟨r, c⟩

/-- How many coordinates the rectangle between two corners has. -/
def rectangleSize (a b : Coordinate) : Int :=
  (max a.row b.row - min a.row b.row + 1) * (max a.column b.column - min a.column b.column + 1)

end Coordinate
end Spreadsheet
