import Spreadsheet.Number.Arithmetic
import Spreadsheet.Number.Shortest
import Spreadsheet.Text.Quoted

/-!
# Values

What a cell holds, what a formula computes with and what an event carries along. Lists come from
ranges; dictionaries come only from outside and keep the order of their entries.
-/

set_option autoImplicit false

namespace Spreadsheet

/-- The key of a dictionary entry. -/
inductive Key where
  | null
  | bool (b : Bool)
  | int (n : Int)
  | float (x : Float)
  | text (s : String)
  deriving Inhabited

inductive Value where
  | null
  | bool (b : Bool)
  | int (n : Int)
  | float (x : Float)
  | text (s : String)
  | list (items : List Value)
  | dict (entries : List (Key × Value))
  deriving Inhabited

def boolText (b : Bool) : String := if b then "True" else "False"

namespace Key

def toValue : Key → Value
  | null => .null
  | bool b => .bool b
  | int n => .int n
  | float x => .float x
  | text s => .text s

/-- The number that a key equals; truth values count as one and zero. -/
def number? : Key → Option Number
  | bool b => some (.int (if b then 1 else 0))
  | int n => some (.int n)
  | float x => some (.float x)
  | _ => none

/-- Keys are the same when they are equal as numbers, or equal texts. -/
def same (a b : Key) : Bool :=
  match a, b with
  | null, null => true
  | text s, text t => s == t
  | a, b =>
    match a.number?, b.number? with
    | some (.float x), some (.float y) => x == y
    | some x, some y => !x.lt y && !y.lt x && !x.isNan && !y.isNan
    | _, _ => false

/-- Whether a key is the number that is none, which equals no key. -/
def isNan (k : Key) : Bool := k.number?.any Number.isNan

/-- The key as it appears inside a message. -/
def quoted : Key → String
  | null => "None"
  | bool b => boolText b
  | int n => Decimal.intText n
  | float x => Decimal.floatText x
  | text s => Text.quoted s

def isWritable : Key → Bool
  | int n => Decimal.isWritable n
  | _ => true

end Key

namespace Value

/-- A value as a number; truth values are not numbers. -/
def number? : Value → Option Number
  | int n => some (.int n)
  | float x => some (.float x)
  | _ => none

def ofNumber : Number → Value
  | .int n => int n
  | .float x => float x

mutual

/-- The value as it appears inside a message. -/
def quoted : Value → String
  | null => "None"
  | bool b => boolText b
  | int n => Decimal.intText n
  | float x => Decimal.floatText x
  | text s => Text.quoted s
  | list vs => "[" ++ String.intercalate ", " (quotedItems vs) ++ "]"
  | dict es => "\x7b" ++ String.intercalate ", " (quotedEntries es) ++ "\x7d"

def quotedItems : List Value → List String
  | [] => []
  | v :: vs => v.quoted :: quotedItems vs

def quotedEntries : List (Key × Value) → List String
  | [] => []
  | (k, v) :: es => (k.quoted ++ ": " ++ v.quoted) :: quotedEntries es

end

mutual

/-- Whether every whole number in the value is short enough to be written. -/
def isWritable : Value → Bool
  | int n => Decimal.isWritable n
  | list vs => areWritable vs
  | dict es => entriesWritable es
  | _ => true

def areWritable : List Value → Bool
  | [] => true
  | v :: vs => v.isWritable && areWritable vs

def entriesWritable : List (Key × Value) → Bool
  | [] => true
  | (k, v) :: es => k.isWritable && v.isWritable && entriesWritable es

end

/-- The plain text of a value: a text stands for itself. -/
def plain : Value → String
  | text s => s
  | v => v.quoted

/-- The plain text of a value, refused when a whole number in it is too long to be written. -/
def write (v : Value) : Except NumericFault String :=
  if v.isWritable then .ok v.plain else .error .tooLongToWrite

/-- Whether a value counts as true in a condition. -/
def isTruthy : Value → Bool
  | null => false
  | bool b => b
  | int n => n != 0
  | float x => x != 0.0
  | text s => s != ""
  | list vs => !vs.isEmpty
  | dict es => !es.isEmpty

def typeName : Value → String
  | null => "NoneType"
  | bool _ => "bool"
  | int _ => "int"
  | float _ => "float"
  | text _ => "str"
  | list _ => "list"
  | dict _ => "dict"

end Value

/-- The entry of a dictionary under a text key. -/
def lookupText (name : String) (entries : List (Key × Value)) : Option Value :=
  (entries.find? fun e => e.1.same (.text name)).map (·.2)

/-- Sets an entry: an entry with the same key keeps its place and its key. -/
def setEntryBy (same : Key → Key → Bool) (k : Key) (v : Value) :
    List (Key × Value) → List (Key × Value)
  | [] => [(k, v)]
  | (k', v') :: es => if same k' k then (k', v) :: es else (k', v') :: setEntryBy same k v es

/-- Sets an entry where keys are the same when they are equal. -/
def setEntry : Key → Value → List (Key × Value) → List (Key × Value) := setEntryBy Key.same

end Spreadsheet
