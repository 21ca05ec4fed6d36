import Spreadsheet.Formula.Parser
import Spreadsheet.Json.Writer
import Spreadsheet.SheetReport
import Spreadsheet.EventLog

/-!
# Listings

How results are laid out for a reader: tokens, trees, reports and events a line each, and values as
indented JSON.
-/

set_option autoImplicit false

namespace Spreadsheet.CommandLine

/-- Blanks that fill a text up to some width. -/
def fill (width : Nat) (s : String) : String :=
  String.ofList (List.replicate (width - s.length) ' ')

def alignLeft (width : Nat) (s : String) : String := s ++ fill width s

def alignRight (width : Nat) (s : String) : String := fill width s ++ s

/-- Lines, each with the break that ends it. -/
def listing (lines : List String) : String := String.join (lines.map (· ++ "\n"))

def jsonText (v : Value) : Except NumericFault String :=
  match Json.write .indented 0 v with
  | .ok cs => .ok (String.ofList (cs ++ ['\n']))
  | .error _ => .error .tooLongToWrite

/-- The position, the kind and the text of a token. -/
def tokenLine (t : Token) : String :=
  alignRight 4 (Decimal.natText t.position) ++ "  " ++ alignLeft 15 t.kind.name ++ " " ++ t.text

def treeLine (depth : Nat) (type : String) (value : Value) : String :=
  String.ofList (List.replicate (2 * depth) ' ') ++ type ++ " " ++ value.quoted

mutual

/-- A tree, a line for each node, indented by depth. -/
def treeLines (depth : Nat) : Formula → List String
  | .text s => [treeLine depth "string" (.text s)]
  | .number s => [treeLine depth "number" (.text s)]
  | .cell a => [treeLine depth "cell" (.text a)]
  | .range a b => [treeLine depth "cellRange" (.list [.text a, .text b])]
  | .negative f => treeLine depth "negative" (.text "-") :: treeLines (depth + 1) f
  | .call name fs => treeLine depth "functionCall" (.text name) :: treesLines (depth + 1) fs
  | .binary o f g =>
    treeLine depth "binaryOperator" (.text o.symbol) ::
      (treeLines (depth + 1) f ++ treeLines (depth + 1) g)

def treesLines (depth : Nat) : List Formula → List String
  | [] => []
  | f :: fs => treeLines depth f ++ treesLines depth fs

end

/-- What follows a line about something that failed. -/
def remark (error : String) : String := if error == "" then "" else "  (" ++ error ++ ")"

/-- The address and the display text of a cell, and its error if it has one. -/
def reportLine (width : Nat) (entry : ReportEntry) : String :=
  alignLeft width entry.address ++ "  " ++ entry.display ++ remark (entry.cell.error.getD "")

/-- A report, a line for each cell. -/
def reportText (report : SheetReport) : String :=
  if report.entries.isEmpty then listing ["No cells."]
  else
    let width := (report.entries.map (·.address.length)).foldl max 0
    listing (report.entries.map (reportLine width))

def fieldText (name : String) (event : Value) : Except EventLog.ReadFault String :=
  return ((← EventLog.field name event).map (·.plain)).getD ""

/-- The time, the level, the type and the message of an event, and its error code if it has one. -/
def eventLine (event : Value) : Except EventLog.ReadFault String := do
  let time ← fieldText "ts" event
  let level := Text.upper (← fieldText "level" event)
  let type ← fieldText "event_type" event
  let message ← fieldText "message" event
  let code ← EventLog.field "error_code" event
  let shown := (code.filter (·.isTruthy)).map fun v => "  (" ++ v.plain ++ ")"
  return "[" ++ time ++ "] " ++ alignLeft 7 level ++ " " ++ type ++ ": " ++ message ++
    shown.getD ""

/-- Events, a line each. -/
def eventsText (events : List Value) : Except EventLog.ReadFault String :=
  if events.isEmpty then .ok (listing ["No events found."])
  else return listing (← events.mapM eventLine)

end Spreadsheet.CommandLine
