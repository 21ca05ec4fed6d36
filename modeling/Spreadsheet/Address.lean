import Spreadsheet.Fault
import Spreadsheet.Text.Letter

/-!
# Addresses

Reading and writing the address of a coordinate, such as `B3`: column letters in either case and a
row number, counted from one, with nothing around them.
-/

set_option autoImplicit false

namespace Spreadsheet

/-- The plain letters that name columns and functions. -/
def isLetter (c : Char) : Bool := ('A' ≤ c && c ≤ 'Z') || ('a' ≤ c && c ≤ 'z')

namespace Coordinate

/-- The column that letters name, counted from zero. Any characters are taken as digits, worth
their distance from the one before `A`. -/
def columnIndex (cs : List Char) : Int :=
  (cs.flatMap Text.upperChar).foldl (fun (n : Int) c => n * 26 + (c.toNat - 64 : Int)) 0 - 1

/-- The column letters and the row digits of an address, if it is made of just these. -/
def splitAddress (cs : List Char) : Option (List Char × List Char) :=
  let column := cs.takeWhile isLetter
  let row := cs.dropWhile isLetter
  if column.isEmpty || row.isEmpty || !row.all Decimal.isDigit then none else some (column, row)

/-- Reads an address. -/
def ofAddress (address : String) : Except Failure Coordinate :=
  match splitAddress address.toList with
  | none => .error (.formula (.malformedAddress address))
  | some (column, row) =>
    match Decimal.read row with
    | .error fault => .error (.numeric fault)
    | .ok 0 => .error (.formula (.rowZero address))
    | .ok (n + 1) => .ok ⟨n, columnIndex column⟩

/-- Writes the address of a coordinate of the grid. -/
def toAddress (c : Coordinate) : Except Failure String :=
  if c.isInGrid then
    if Decimal.isWritable (c.row + 1) then .ok c.address else .error (.numeric .tooLongToWrite)
  else if Decimal.isWritable c.row && Decimal.isWritable c.column then
    .error (.formula (.outsideGrid c))
  else .error (.numeric .tooLongToWrite)

end Coordinate
end Spreadsheet
