import Spreadsheet.KeyOrder

/-!
# Writing JSON

A value is written in plain characters: whatever lies outside the printable ones of the first half
of a byte is escaped, so a written text has no line break of its own. Infinite numbers and the
number that is none are written as words. The style tells whether entries are put in key order and
how items are set apart.
-/

set_option autoImplicit false

namespace Spreadsheet.Json

/-- Why a value has no JSON text. -/
inductive WriteFault where
  /-- A dictionary that is to be put in key order has keys without one. -/
  | unordered (a b : Key)
  /-- A whole number is too long to be written. -/
  | tooLong

def WriteFault.message : WriteFault → String
  | unordered a b => unorderedMessage a b
  | tooLong => NumericFault.tooLongToWrite.message

/-- The escape of one sixteen bit unit. -/
def escapedUnit (n : Nat) : List Char := '\\' :: 'u' :: Text.hexDigits 4 n

/-- A character between quotes. Characters beyond sixteen bits are written as two units. -/
def escaped (c : Char) : List Char :=
  let n := c.toNat
  if c == '"' then ['\\', '"']
  else if c == '\\' then ['\\', '\\']
  else if c == '\n' then ['\\', 'n']
  else if c == '\r' then ['\\', 'r']
  else if c == '\t' then ['\\', 't']
  else if c == '\x08' then ['\\', 'b']
  else if c == '\x0c' then ['\\', 'f']
  else if 0x20 ≤ n && n ≤ 0x7e then [c]
  else if n < 0x10000 then escapedUnit n
  else
    escapedUnit (0xd800 + (n - 0x10000) / 0x400) ++ escapedUnit (0xdc00 + (n - 0x10000) % 0x400)

def writeText (s : String) : List Char := '"' :: s.toList.flatMap escaped ++ ['"']

def writeBool (b : Bool) : List Char := if b then "true".toList else "false".toList

def writeFloat (x : Float) : List Char :=
  match Binary64.decode x with
  | .nan => "NaN".toList
  | .infinite negative => if negative then "-Infinity".toList else "Infinity".toList
  | .finite .. => (Decimal.floatText x).toList

def writeInt (n : Int) : Except WriteFault (List Char) :=
  if Decimal.isWritable n then .ok (Decimal.intText n).toList else .error .tooLong

/-- The text of a key; a key that is no text is written as one. -/
def writeKey : Key → Except WriteFault (List Char)
  | .text s => .ok (writeText s)
  | .null => .ok (writeText "null")
  | .bool b => .ok ('"' :: writeBool b ++ ['"'])
  | .float x => .ok ('"' :: writeFloat x ++ ['"'])
  | .int n => return '"' :: (← writeInt n) ++ ['"']

/-- How values are laid out, by their depth. -/
structure Style where
  /-- Whether the entries of a dictionary are put in key order. -/
  sorts : Bool
  /-- What stands between an opening bracket and the first item. -/
  first : Nat → List Char
  /-- What stands between two items. -/
  between : Nat → List Char
  /-- What stands between the last item and the closing bracket. -/
  last : Nat → List Char

/-- All on one line, entries in key order. -/
def Style.line : Style where
  sorts := true
  first _ := []
  between _ := [',', ' ']
  last _ := []

/-- The start of a line at some depth, two blanks for each level. -/
def newLine (depth : Nat) : List Char := '\n' :: List.replicate (2 * depth) ' '

/-- An item a line, indented by depth, entries in their own order. -/
def Style.indented : Style where
  sorts := false
  first depth := newLine (depth + 1)
  between depth := ',' :: newLine (depth + 1)
  last depth := newLine depth

/-- Items between brackets. -/
def Style.enclose (style : Style) (depth : Nat) (opening closing : Char)
    (items : List (List Char)) : List Char :=
  if items.isEmpty then [opening, closing]
  else
    opening :: style.first depth ++ (style.between depth).intercalate items ++ style.last depth ++
      [closing]

/-- Puts entries in key order if the style asks for it. -/
def Style.arrange {α : Type} (style : Style) (entries : List (Key × α)) :
    Except WriteFault (List (Key × α)) :=
  if style.sorts then
    match Key.sortEntries entries with
    | .ok sorted => .ok sorted
    | .error (a, b) => .error (.unordered a b)
  else .ok entries

/-- An entry whose value is written. -/
def writeEntry (entry : Key × Except WriteFault (List Char)) : Except WriteFault (List Char) := do
  let key ← writeKey entry.1
  let value ← entry.2
  return key ++ ':' :: ' ' :: value

mutual

def write (style : Style) (depth : Nat) : Value → Except WriteFault (List Char)
  | .null => .ok "null".toList
  | .bool b => .ok (writeBool b)
  | .int n => writeInt n
  | .float x => .ok (writeFloat x)
  | .text s => .ok (writeText s)
  | .list vs => return style.enclose depth '[' ']' (← writeAll style (depth + 1) vs)
  | .dict es => do
    let arranged ← style.arrange (writeValues style (depth + 1) es)
    return style.enclose depth '\x7b' '\x7d' (← arranged.mapM writeEntry)

def writeAll (style : Style) (depth : Nat) : List Value → Except WriteFault (List (List Char))
  | [] => .ok []
  | v :: vs => return (← write style depth v) :: (← writeAll style depth vs)

/-- The entries with their values written; a fault stays with its entry. -/
def writeValues (style : Style) (depth : Nat) :
    List (Key × Value) → List (Key × Except WriteFault (List Char))
  | [] => []
  | (k, v) :: es => (k, write style depth v) :: writeValues style depth es

end

end Spreadsheet.Json
