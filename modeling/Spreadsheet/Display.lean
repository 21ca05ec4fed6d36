import Spreadsheet.Cell

/-!
# What a cell displays

Errors display as a mark that tells circular references from the rest, empty cells as nothing, whole
doubles without a point and other doubles with ten digits at most.
-/

set_option autoImplicit false

namespace Spreadsheet

mutual

def Value.display : Value → Except NumericFault String
  | .null => .ok ""
  | .bool b => .ok (if b then "TRUE" else "FALSE")
  | .float x =>
    if Binary64.isWhole x then Decimal.write ((Binary64.truncate? x).getD 0)
    else .ok (Decimal.displayText x)
  | .list vs => return String.intercalate ", " (← Value.displayAll vs)
  | .int n => Decimal.write n
  | .text s => .ok s
  | .dict es => (Value.dict es).write

def Value.displayAll : List Value → Except NumericFault (List String)
  | [] => .ok []
  | v :: vs => return (← v.display) :: (← Value.displayAll vs)

end

namespace Cell

/-- Whether a cell failed because of a circular reference. -/
def isCircular (cell : Cell) : Bool :=
  match cell.error with
  | some error => FormulaFault.circularMark.toList.isPrefixOf error.toList
  | none => false

/-- The display text of a settled cell. -/
def display (cell : Cell) : Except NumericFault String :=
  match cell.error with
  | some _ => .ok (if cell.isCircular then "#CIRC!" else "#ERR!")
  | none => cell.value.display

end Cell
end Spreadsheet
