import Spreadsheet.Number.Literal
import Spreadsheet.Value

/-!
# Reading JSON

Reads a value off a text. Besides the standard form, the words for infinite numbers and for the
number that is none are read. A number with a point or an exponent is a double and any other a whole
number. Of equal keys the last gives the value.
-/

set_option autoImplicit false

namespace Spreadsheet.Json

/-- Why a text is not read. -/
inductive ReadFault where
  | malformed
  | numeric (fault : NumericFault)

def isSpace (c : Char) : Bool := c == ' ' || c == '\t' || c == '\n' || c == '\r'

def skipSpaces (cs : List Char) : List Char := cs.dropWhile isSpace

/-- The words and what they stand for. -/
def words : List (List Char × Value) := [
  ("null".toList, .null),
  ("true".toList, .bool true),
  ("false".toList, .bool false),
  ("NaN".toList, .float (0.0 / 0.0)),
  ("Infinity".toList, .float (Binary64.infinity false)),
  ("-Infinity".toList, .float (Binary64.infinity true))]

/-- The word at the front of a text. -/
def word? (cs : List Char) : Option (Value × List Char) :=
  words.findSome? fun (w, v) => if w.isPrefixOf cs then some (v, cs.drop w.length) else none

/-! ## Numbers -/

/-- The digits of a whole number at the front, which has no zero to spare. -/
def wholeDigits : List Char → List Char
  | '0' :: _ => ['0']
  | cs => cs.takeWhile Decimal.isDigit

/-- The point and the digits after it, if they are there. -/
def fractionPart : List Char → List Char
  | '.' :: cs =>
    let digits := cs.takeWhile Decimal.isDigit
    if digits.isEmpty then [] else '.' :: digits
  | _ => []

/-- The sign that may stand before the digits of an exponent. -/
def exponentSign : List Char → List Char
  | '+' :: _ => ['+']
  | '-' :: _ => ['-']
  | _ => []

def exponentPart : List Char → List Char
  | e :: cs =>
    if e == 'e' || e == 'E' then
      let sign := exponentSign cs
      let digits := (cs.drop sign.length).takeWhile Decimal.isDigit
      if digits.isEmpty then [] else e :: sign ++ digits
    else []
  | [] => []

/-- The number at the front of a text. -/
def number (cs : List Char) : Except ReadFault (Value × List Char) :=
  let sign := if cs.head? == some '-' then ['-'] else []
  let r := cs.drop sign.length
  let whole := wholeDigits r
  let r := r.drop whole.length
  let fraction := fractionPart r
  let r := r.drop fraction.length
  let exponent := exponentPart r
  let r := r.drop exponent.length
  if whole.isEmpty then .error .malformed
  else if fraction.isEmpty && exponent.isEmpty then
    match Decimal.read whole with
    | .ok n => .ok (.int (if sign.isEmpty then n else -(n : Int)), r)
    | .error fault => .error (.numeric fault)
  else
    match Decimal.float? (sign ++ whole ++ fraction ++ exponent) with
    | some x => .ok (.float x, r)
    | none => .error .malformed

/-! ## Texts -/

/-- Four hexadecimal digits at the front, as a number. -/
def unit? : List Char → Option (Nat × List Char)
  | a :: b :: c :: d :: r => do
    let ds ← [a, b, c, d].mapM Text.hexValue?
    return (ds.foldl (fun n d => n * 16 + d) 0, r)
  | _ => none

/-- Units that begin a pair of units for one character. -/
def isLeading (n : Nat) : Bool := 0xd800 ≤ n && n ≤ 0xdbff

/-- Units that end such a pair. -/
def isTrailing (n : Nat) : Bool := 0xdc00 ≤ n && n ≤ 0xdfff

/-- What is taken for half a pair without its other half, which is no character. -/
def loneUnit : Nat → Char := fun _ => Char.ofNat 0xfffd

/-- The character of a unit and what follows it. -/
def ofUnit (n : Nat) (r : List Char) (lone : Nat → Char := loneUnit) :
    Option (Char × List Char) :=
  if isLeading n then
    match r with
    | '\\' :: 'u' :: r' => do
      let (m, r'') ← unit? r'
      if isTrailing m then
        return (Char.ofNat (0x10000 + (n - 0xd800) * 0x400 + (m - 0xdc00)), r'')
      else return (lone n, r)
    | _ => some (lone n, r)
  else if isTrailing n then some (lone n, r)
  else some (Char.ofNat n, r)

/-- The characters that stand for others after a backslash. -/
def escapes : List (Char × Char) :=
  [('"', '"'), ('\\', '\\'), ('/', '/'), ('b', '\x08'), ('f', '\x0c'), ('n', '\n'), ('r', '\r'),
    ('t', '\t')]

/-- The character that what follows a backslash stands for. -/
def unescaped (cs : List Char) (lone : Nat → Char := loneUnit) :
    Option (Char × List Char) :=
  match cs with
  | 'u' :: r => do
    let (n, r) ← unit? r
    ofUnit n r lone
  | c :: r => (escapes.lookup c).map (·, r)
  | [] => none

/-- The characters up to the closing quote. -/
def textRest (fuel : Nat) (cs : List Char) (lone : Nat → Char := loneUnit) :
    Option (List Char × List Char) :=
  match fuel, cs with
  | 0, _ => none
  | _, [] => none
  | fuel + 1, c :: r =>
    if c == '"' then some ([], r)
    else if c == '\\' then do
      let (c, r) ← unescaped r lone
      let (cs, r) ← textRest fuel r lone
      return (c :: cs, r)
    else if c.toNat < 0x20 then none
    else do
      let (cs, r) ← textRest fuel r lone
      return (c :: cs, r)

/-- A text after its opening quote. -/
def text (fuel : Nat) (cs : List Char) (lone : Nat → Char := loneUnit) :
    Except ReadFault (String × List Char) :=
  match textRest fuel cs lone with
  | some (s, r) => .ok (String.ofList s, r)
  | none => .error .malformed

/-! ## Values -/

/-- Passes over a mark and the spaces around it. -/
def expect (mark : Char) (cs : List Char) : Except ReadFault (List Char) :=
  match skipSpaces cs with
  | c :: r => if c == mark then .ok (skipSpaces r) else .error .malformed
  | [] => .error .malformed

/-- The dictionary of some entries in the order they were read. -/
def dictionary (entries : List (Key × Value)) : Value :=
  .dict (entries.foldl (fun es e => setEntry e.1 e.2 es) [])

mutual

/-- The value at the front of a text. The number bounds the depth. -/
def value (fuel : Nat) (cs : List Char) (lone : Nat → Char := loneUnit) :
    Except ReadFault (Value × List Char) :=
  match fuel, cs with
  | 0, _ => .error .malformed
  | _, [] => .error .malformed
  | fuel + 1, c :: r =>
    if c == '"' then do
      let (s, r) ← text fuel r lone
      return (.text s, r)
    else if c == '[' then
      match skipSpaces r with
      | ']' :: r => .ok (.list [], r)
      | r => do
        let (vs, r) ← items fuel r lone
        return (.list vs, r)
    else if c == '\x7b' then
      match skipSpaces r with
      | '\x7d' :: r => .ok (.dict [], r)
      | r => do
        let (es, r) ← entries fuel r lone
        return (dictionary es, r)
    else
      match word? (c :: r) with
      | some found => .ok found
      | none => number (c :: r)

/-- The items of a list and its closing bracket. -/
def items (fuel : Nat) (cs : List Char) (lone : Nat → Char := loneUnit) :
    Except ReadFault (List Value × List Char) :=
  match fuel with
  | 0 => .error .malformed
  | fuel + 1 => do
    let (v, r) ← value fuel cs lone
    match skipSpaces r with
    | ',' :: r => do
      let (vs, r) ← items fuel (skipSpaces r) lone
      return (v :: vs, r)
    | ']' :: r => return ([v], r)
    | _ => throw .malformed

/-- The entries of a dictionary and its closing bracket. -/
def entries (fuel : Nat) (cs : List Char) (lone : Nat → Char := loneUnit) :
    Except ReadFault (List (Key × Value) × List Char) :=
  match fuel, cs with
  | 0, _ => .error .malformed
  | _, [] => .error .malformed
  | fuel + 1, c :: r => do
    if c != '"' then throw .malformed
    let (k, r) ← text fuel r lone
    let (v, r) ← value fuel (← expect ':' r) lone
    match skipSpaces r with
    | ',' :: r => do
      let (es, r) ← entries fuel (skipSpaces r) lone
      return ((.text k, v) :: es, r)
    | '\x7d' :: r => return ([(.text k, v)], r)
    | _ => throw .malformed

end

/-- The value that a text holds, with nothing but spaces around it. -/
def read (cs : List Char) (lone : Nat → Char := loneUnit) : Except ReadFault Value := do
  let (v, r) ← value (2 * cs.length + 2) (skipSpaces cs) lone
  if (skipSpaces r).isEmpty then return v else throw .malformed

end Spreadsheet.Json
