import Spreadsheet.Fault
import Spreadsheet.Text.Letter

/-!
# Functions of formulas

A function takes a list of values, and nothing else decides what it gives. A registry holds functions
by name, and formulas look them up by their name in lower case.
-/

set_option autoImplicit false

namespace Spreadsheet

/-- Why a function gave no value. Only a fault of the formula is reported as it is; the rest is
wrapped into one that names the function. -/
inductive FunctionFault where
  | formula (fault : FormulaFault)
  | numeric (fault : NumericFault)
  /-- A value was asked for past the end of the arguments. -/
  | missingArgument
  | raised (text : String)

def FunctionFault.message : FunctionFault → String
  | formula fault => fault.message
  | numeric fault => fault.message
  | missingArgument => "list index out of range"
  | raised text => text

/-- A function of formulas. -/
abbrev Function := List Value → Except FunctionFault Value

structure Registry where
  entries : List (String × Function) := []

namespace Registry

def find? (r : Registry) (key : String) : Option Function := r.entries.lookup key

/-- Sets the function under a key; a key that is there already keeps its place. -/
def setFunction (key : String) (f : Function) : List (String × Function) → List (String × Function)
  | [] => [(key, f)]
  | (k, g) :: es => if k == key then (k, f) :: es else (k, g) :: setFunction key f es

/-- Adds a function under exactly this key. -/
def insert (r : Registry) (key : String) (f : Function) : Registry :=
  ⟨setFunction key f r.entries⟩

/-- Adds a function under its name, whatever the case of the name. -/
def register (r : Registry) (name : String) (f : Function) : Registry :=
  r.insert (Text.lower name) f

/-- The keys in the order of their characters. -/
def names (r : Registry) : List String :=
  (r.entries.map (·.1)).mergeSort fun a b => !decide (b < a)

/-- Finds a function by name, whatever the case of the name. -/
def byName? (r : Registry) (name : String) : Option Function := r.find? (Text.lower name)

end Registry

/-- The message when no function has a name. -/
def unknownNameMessage (name : String) : String :=
  Text.quoted ("Unknown function: " ++ Text.quoted name)

end Spreadsheet
