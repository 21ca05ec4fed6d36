import Spreadsheet.Number.Arithmetic
import Spreadsheet.Number.Literal
import Spreadsheet.Value

/-!
# Plain scalars

What an unquoted scalar of a document stands for: nothing, a truth value, a number, or itself as a
text. Numbers may be grouped by underscores, whole numbers also be written to base two, eight or
sixteen, and both kinds in groups of sixty.
-/

set_option autoImplicit false

namespace Spreadsheet.Yaml

/-- What an unquoted scalar stands for. -/
inductive Plain where
  | value (v : Value)
  /-- The mark that merges one mapping into another. -/
  | merge
  /-- The mark of a default value, which is a text only as a key. -/
  | default

def nullTexts : List String := ["", "~", "null", "Null", "NULL"]

def trueTexts : List String :=
  ["yes", "Yes", "YES", "true", "True", "TRUE", "on", "On", "ON"]

def falseTexts : List String :=
  ["no", "No", "NO", "false", "False", "FALSE", "off", "Off", "OFF"]

def infinityTexts : List String := [".inf", ".Inf", ".INF"]

def nanTexts : List String := [".nan", ".NaN", ".NAN"]

def ungrouped (cs : List Char) : List Char := cs.filter (· != '_')

def isGroupedDigit (c : Char) : Bool := Decimal.isDigit c || c == '_'

/-- Digits and underscores that start with a digit. -/
def isGrouped : List Char → Bool
  | c :: cs => Decimal.isDigit c && cs.all isGroupedDigit
  | [] => false

/-- The parts of a text between the occurrences of a character. -/
def splitAt (mark : Char) : List Char → List (List Char)
  | [] => [[]]
  | c :: cs =>
    if c == mark then [] :: splitAt mark cs
    else
      match splitAt mark cs with
      | part :: parts => (c :: part) :: parts
      | [] => [[c]]

/-- A group below sixty, in one or two digits. -/
def isSixtieth (cs : List Char) : Bool :=
  match cs with
  | [c] => Decimal.isDigit c
  | [a, b] => '0' ≤ a && a ≤ '5' && Decimal.isDigit b
  | _ => false

/-- The value of digits to a base. -/
def ofBase (base : Nat) (cs : List Char) : Nat :=
  cs.foldl (fun n c =>
    n * base + (if c ≤ '9' then c.toNat - 48 else if c ≤ 'F' then c.toNat - 55 else c.toNat - 87)) 0

def isHexDigit (c : Char) : Bool :=
  Decimal.isDigit c || ('a' ≤ c && c ≤ 'f') || ('A' ≤ c && c ≤ 'F')

/-- The value of digits to a base, of which there must be one. -/
def readBase (base : Nat) (cs : List Char) : Except NumericFault Nat :=
  if cs.isEmpty then .error (.noDigits base) else .ok (ofBase base cs)

/-- The value of groups of sixty. -/
def readSixtieths (groups : List (List Char)) : Except NumericFault Nat :=
  return (← groups.mapM Decimal.read).foldl (fun n group => n * 60 + group) 0

/-- The magnitude of a whole number, if a text is one. -/
def wholeMagnitude? (cs : List Char) : Option (Except NumericFault Nat) :=
  let ds := ungrouped cs
  match cs with
  | '0' :: 'b' :: bits =>
    if !bits.isEmpty && bits.all fun c => c == '0' || c == '1' || c == '_' then
      some (readBase 2 (ds.drop 2))
    else none
  | '0' :: 'x' :: hexes =>
    if !hexes.isEmpty && hexes.all fun c => isHexDigit c || c == '_' then
      some (readBase 16 (ds.drop 2))
    else none
  | ['0'] => some (.ok 0)
  | '0' :: octals =>
    if octals.all fun c => ('0' ≤ c && c ≤ '7') || c == '_' then some (readBase 8 ds) else none
  | _ =>
    match splitAt ':' cs with
    | [_] => if isGrouped cs then some (Decimal.read ds) else none
    | first :: sixtieths =>
      if isGrouped first && sixtieths.all isSixtieth then some (readSixtieths (splitAt ':' ds))
      else none
    | [] => none

/-- The exponent that may follow a double, its sign written out. -/
def isExponent : List Char → Bool
  | [] => true
  | e :: sign :: ds =>
    (e == 'e' || e == 'E') && (sign == '+' || sign == '-') && !ds.isEmpty && ds.all Decimal.isDigit
  | _ => false

/-- Whether a text, its sign aside, is a double with a point. -/
def isPointed (hasSign : Bool) (cs : List Char) : Bool :=
  let whole := cs.takeWhile isGroupedDigit
  match cs.drop whole.length with
  | '.' :: rest =>
    let decimals := rest.takeWhile isGroupedDigit
    let exponent := rest.drop decimals.length
    isExponent exponent &&
      (isGrouped whole || (whole.isEmpty && !hasSign && isGrouped decimals))
  | _ => false

/-- The sum of groups of sixty, the last of them first. Each group is weighed by the double next to
its power of sixty. -/
def sumSixtieths (weight : Nat) (sum : Float) : List Float → Except NumericFault Float
  | [] => .ok sum
  | x :: xs => do
    let w ← (Number.int weight).toFloat
    sumSixtieths (weight * 60) (sum + x * w) xs

/-- A double in groups of sixty, its sign aside. -/
def sixtiethFloat? (cs : List Char) : Option (Except NumericFault Float) :=
  let head := cs.takeWhile (· != '.')
  match cs.drop head.length with
  | '.' :: decimals =>
    match splitAt ':' head with
    | first :: second :: more =>
      if isGrouped first && (second :: more).all isSixtieth && decimals.all isGroupedDigit then
        let parts := (splitAt ':' (ungrouped cs)).map fun p => (Decimal.float? p).getD 0.0
        some (sumSixtieths 1 0.0 parts.reverse)
      else none
    | _ => none
  | _ => none

def signedFloat (negative : Bool) (x : Float) : Float := if negative then -x else x

/-- The double that a text names, if it does. -/
def float? (cs : List Char) : Option (Except NumericFault Float) :=
  let (negative, magnitude) := Decimal.splitSign cs
  let hasSign := magnitude.length < cs.length
  let text := String.ofList magnitude
  if infinityTexts.contains text then some (.ok (Binary64.infinity negative))
  else if nanTexts.contains (String.ofList cs) then some (.ok (0.0 / 0.0))
  else if isPointed hasSign magnitude then
    (Decimal.float? (ungrouped magnitude)).map fun x => .ok (signedFloat negative x)
  else (sixtiethFloat? magnitude).map (·.map (signedFloat negative))

/-- The whole number that a text names, if it does. -/
def int? (cs : List Char) : Option (Except NumericFault Int) :=
  let (negative, magnitude) := Decimal.splitSign cs
  (wholeMagnitude? magnitude).map fun n => n.map fun n => if negative then -(n : Int) else n

/-- What an unquoted scalar stands for. -/
def plain (s : String) : Except NumericFault Plain :=
  let cs := s.toList
  if nullTexts.contains s then .ok (.value .null)
  else if trueTexts.contains s then .ok (.value (.bool true))
  else if falseTexts.contains s then .ok (.value (.bool false))
  else if s == "<<" then .ok .merge
  else if s == "=" then .ok .default
  else
    match float? cs with
    | some (.ok x) => .ok (.value (.float x))
    | some (.error fault) => .error fault
    | none =>
      match int? cs with
      | some (.ok n) => .ok (.value (.int n))
      | some (.error fault) => .error fault
      | none => .ok (.value (.text s))

end Spreadsheet.Yaml
