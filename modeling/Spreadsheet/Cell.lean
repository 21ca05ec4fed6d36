import Spreadsheet.Address
import Spreadsheet.KeyOrder

/-!
# Cells and grids

A cell holds a literal, a formula that awaits evaluation, or a settled fault; one with none of them
is empty. A grid holds one cell at each of finitely many coordinates, in the order in which the
coordinates were first written.
-/

set_option autoImplicit false

namespace Spreadsheet

structure Cell where
  value : Value := .null
  error : Option String := none
  formula : Option String := none
  deriving Inhabited

/-- Why a raw value makes no cell. -/
inductive CellFault where
  | unknownKeys (keys : List Key)
  /-- The unknown keys cannot be put in order for the message. -/
  | unorderedKeys (a b : Key)
  /-- An unknown key is a number that is too long for the message. -/
  | longKey
  /-- Fields that must hold a text or nothing hold something else. -/
  | invalidFields (fields : List String)

namespace CellFault

def message : CellFault → String
  | unknownKeys keys =>
    "Unknown cell keys: [" ++ String.intercalate ", " (keys.map (·.quoted)) ++ "]"
  | unorderedKeys a b => unorderedMessage a b
  | longKey => NumericFault.tooLongToWrite.message
  | invalidFields _ => ""

end CellFault

namespace Cell

/-- The keys of the dictionary form of a cell. -/
def fieldNames : List String := ["value", "formula", "error"]

/-- A field that holds a text or nothing. -/
def textField (name : String) (entries : List (Key × Value)) : Except Unit (Option String) :=
  match lookupText name entries with
  | none => .ok none
  | some .null => .ok none
  | some (.text s) => .ok (some s)
  | some _ => .error ()

/-- The cell that a dictionary of its fields describes. -/
def ofEntries (entries : List (Key × Value)) : Except CellFault Cell :=
  match textField "error" entries, textField "formula" entries with
  | .ok error, .ok formula => .ok ⟨(lookupText "value" entries).getD .null, error, formula⟩
  | .error _, .error _ => .error (.invalidFields ["error", "formula"])
  | .error _, .ok _ => .error (.invalidFields ["error"])
  | .ok _, .error _ => .error (.invalidFields ["formula"])

/-- Whether a key names a field of a cell. -/
def isField (k : Key) : Bool := fieldNames.any fun name => k.same (.text name)

/-- The cell for a raw value: a dictionary of fields, a text that starts with an equals sign, or a
literal. -/
def ofRaw (raw : Value) : Except CellFault Cell :=
  match raw with
  | .dict entries =>
    match (entries.map (·.1)).filter (!isField ·) with
    | [] => ofEntries entries
    | unknown =>
      match Key.sort unknown with
      | .ok keys => .error (if keys.all (·.isWritable) then .unknownKeys keys else .longKey)
      | .error (a, b) => .error (.unorderedKeys a b)
  | .text s => if s.toList.head? = some '=' then .ok { formula := some s } else .ok { value := raw }
  | _ => .ok { value := raw }

end Cell

/-- Sets the cell at a coordinate: a coordinate that is there already keeps its place. -/
def setCell (c : Coordinate) (cell : Cell) :
    List (Coordinate × Cell) → List (Coordinate × Cell)
  | [] => [(c, cell)]
  | (c', cell') :: es => if c' = c then (c, cell) :: es else (c', cell') :: setCell c cell es

/-- Setting a cell adds at most its coordinate. -/
theorem mem_setCell_coordinates {c c' : Coordinate} {cell : Cell}
    {es : List (Coordinate × Cell)} (h : c' ∈ (setCell c cell es).map (·.1)) :
    c' = c ∨ c' ∈ es.map (·.1) := by
  induction es with
  | nil => simpa [setCell] using h
  | cons e es ih =>
    by_cases he : e.1 = c
    · grind [setCell]
    · grind [setCell]

theorem nodup_setCell {c : Coordinate} {cell : Cell} {es : List (Coordinate × Cell)}
    (h : (es.map (·.1)).Nodup) : ((setCell c cell es).map (·.1)).Nodup := by
  induction es with
  | nil => simp [setCell]
  | cons e es ih =>
    obtain ⟨d, x⟩ := e
    simp only [List.map_cons, List.nodup_cons] at h
    by_cases hd : d = c
    · subst hd
      simpa [setCell] using h
    · simp only [setCell, hd, if_false, List.map_cons, List.nodup_cons]
      refine ⟨fun hmem => ?_, ih h.2⟩
      rcases mem_setCell_coordinates hmem with hc | hmem
      · exact hd hc
      · exact h.1 hmem

/-- Cells by coordinate, in the order in which the coordinates were first written. -/
structure Grid where
  entries : List (Coordinate × Cell) := []
  nodup : (entries.map (·.1)).Nodup := by simp

namespace Grid

def empty : Grid := {}

def get? (g : Grid) (c : Coordinate) : Option Cell := g.entries.lookup c

def insert (g : Grid) (c : Coordinate) (cell : Cell) : Grid :=
  ⟨setCell c cell g.entries, nodup_setCell g.nodup⟩

def size (g : Grid) : Nat := g.entries.length

def coordinates (g : Grid) : List Coordinate := g.entries.map (·.1)

end Grid

/-- Why raw cells make no grid. -/
inductive GridFault where
  | address (failure : Failure)
  | cell (fault : CellFault)

def GridFault.message : GridFault → String
  | address failure => failure.message
  | cell fault => fault.message

namespace Grid

/-- Adds raw cells in order, each under its address. -/
def addRaw (g : Grid) : List (String × Value) → Except GridFault Grid
  | [] => .ok g
  | (address, raw) :: rest =>
    match Coordinate.ofAddress address with
    | .error failure => .error (.address failure)
    | .ok c =>
      match Cell.ofRaw raw with
      | .error fault => .error (.cell fault)
      | .ok cell => addRaw (g.insert c cell) rest

def ofRaw (cells : List (String × Value)) : Except GridFault Grid := empty.addRaw cells

end Grid
end Spreadsheet
