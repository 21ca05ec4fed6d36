import Spreadsheet.Cell
import Spreadsheet.Files
import Spreadsheet.Text.Utf8
import Spreadsheet.Yaml.Fault

/-!
# Sheet files

A sheet file is a document with one grid: a mapping whose entry `cells` maps addresses to raw cells.
-/

set_option autoImplicit false

namespace Spreadsheet

/-- Why a sheet file makes no grid. -/
inductive SheetFault where
  | document (fault : Yaml.DocumentFault)
  | file (fault : FileFault)
  | notMapping (path : Path)
  | cellsNotMapping (path : Path)
  /-- A number that stands for an address is too long to be written. -/
  | longAddress
  | grid (fault : GridFault)

namespace SheetFault

def message : SheetFault → String
  | document fault => fault.message
  | file fault => fault.message
  | notMapping path => path.text ++ ": expected a mapping at top level"
  | cellsNotMapping path => path.text ++ ": 'cells' must be a mapping of address -> cell"
  | longAddress => NumericFault.tooLongToWrite.message
  | grid fault => fault.message

/-- Whether the fault lies in what the sheet says, so that its message tells the user what to do.
The others end a run as they are. -/
def isExplained : SheetFault → Bool
  | document fault => fault.isExplained
  | grid (.cell (.unorderedKeys ..)) => false
  | _ => true

end SheetFault

namespace Sheet

/-- Sets a raw cell: an address that is there already keeps its place. -/
def setRaw (address : String) (raw : Value) : List (String × Value) → List (String × Value)
  | [] => [(address, raw)]
  | (a, r) :: cells =>
    if a == address then (a, raw) :: cells else (a, r) :: setRaw address raw cells

def rawCells (entries : List (Key × Value)) : Except SheetFault (List (String × Value)) := do
  let cells ← entries.mapM fun (k, raw) =>
    match k.toValue.write with
    | .ok address => .ok (address, raw)
    | .error _ => .error .longAddress
  return cells.foldl (fun cells (address, raw) => setRaw address raw cells) []

/-- The grid of a document. Nothing, and whatever counts as false, has no cells. -/
def gridOf (path : Path) (document : Value) : Except SheetFault Grid :=
  if !document.isTruthy then .ok .empty
  else
    match document with
    | .dict entries =>
      let cells := (lookupText "cells" entries).getD .null
      if !cells.isTruthy then .ok .empty
      else
        match cells with
        | .dict cells => do
          let raw ← rawCells cells
          (Grid.ofRaw raw).mapError .grid
        | _ => .error (.cellsNotMapping path)
    | _ => .error (.notMapping path)

def load (reader : Yaml.Reader) (files : Files) (path : Path) : Except SheetFault Grid := do
  let bytes ← (files.read path).mapError .file
  let document ← (reader (Text.decodeUtf8 bytes)).mapError .document
  gridOf path document

end Sheet
end Spreadsheet
