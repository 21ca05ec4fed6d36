import Spreadsheet.Display
import Spreadsheet.Event
import Spreadsheet.Resolver

/-!
# Reports on sheets

The settled cells of a whole grid, row by row, and the events that tell about them: one for each
cell that failed, and one for the sheet at the end.
-/

set_option autoImplicit false

namespace Spreadsheet

/-- What the clock says about a run. -/
structure Clock where
  /-- The time of the run. -/
  time : String
  /-- How many milliseconds an evaluation took. -/
  elapsed : Float

structure ReportEntry where
  cell : Cell
  address : String
  display : String

structure SheetReport where
  entries : List ReportEntry
  /-- Why the report breaks off after its entries, if it does. -/
  fault : Option NumericFault := none

namespace SheetReport

/-- The report on some settled cells in their order. It breaks off at a cell that cannot be
displayed. -/
def ofCells : List (Coordinate × Cell) → SheetReport
  | [] => { entries := [] }
  | (c, cell) :: rest =>
    match cell.display with
    | .error fault => { entries := [], fault := some fault }
    | .ok display =>
      let report := ofCells rest
      { report with entries := ⟨cell, c.address, display⟩ :: report.entries }

def rowMajor (cells : List (Coordinate × Cell)) : List (Coordinate × Cell) :=
  cells.mergeSort fun a b => a.1.le b.1

/-- The report on a grid. -/
def evaluate (ctx : EvaluationContext) : Resolver.Step SheetReport := do
  return ofCells (rowMajor (← Resolver.evaluateGrid ctx))

/-- The number of cells that failed. -/
def errorCount (report : SheetReport) : Nat :=
  report.entries.countP (·.cell.error.isSome)

/-! ## Events -/

/-- The event about a cell, if it failed. -/
def cellEvent? (time : String) (source : Option String) (entry : ReportEntry) : Option Event :=
  entry.cell.error.map fun error =>
    let (type, code) :=
      if entry.cell.isCircular then (EventType.circularReference, ErrorCode.circularReference)
      else (EventType.cellError, ErrorCode.formulaEvaluation)
    { time := time
      level := .warning
      type := type
      context := [
        ("address", .text entry.address),
        ("formula", Event.textValue? entry.cell.formula),
        ("source", Event.textValue? source)]
      message := error
      errorCode := some code.name }

/-- The event about the whole sheet. -/
def sheetEvent (clock : Clock) (source : Option String) (report : SheetReport) : Event :=
  let failed := report.errorCount
  let summary := "Evaluated " ++ Decimal.natText report.entries.length ++ " cells"
  { time := clock.time
    level := if failed == 0 then .info else .warning
    type := .sheetEvaluated
    context := [
      ("source", Event.textValue? source),
      ("n_cells", .int report.entries.length),
      ("n_errors", .int failed),
      ("duration_ms", .float clock.elapsed)]
    message :=
      if failed == 0 then summary
      else summary ++ " with " ++ Decimal.natText failed ++ " error(s)"
    errorCode := if failed == 0 then none else some ErrorCode.sheetHasErrors.name }

/-- The events about a report, the one about the sheet only if the report is complete. -/
def events (clock : Clock) (source : Option String) (report : SheetReport) : List Event :=
  report.entries.filterMap (cellEvent? clock.time source) ++
    if report.fault.isNone then [report.sheetEvent clock source] else []

/-- The report as a dictionary by address. -/
def toValue (report : SheetReport) : Value :=
  .dict (report.entries.map fun entry =>
    (.text entry.address, Event.dictionary [
      ("value", entry.cell.value),
      ("error", Event.textValue? entry.cell.error),
      ("display", .text entry.display)]))

end SheetReport
end Spreadsheet
