import Spreadsheet.Number.Literal
import Spreadsheet.Text.Blank
import Spreadsheet.Text.DecimalDigit
import Spreadsheet.Value

/-!
# Values as whole numbers

Settings and options accept a whole number in more than one form: as a number, whose fraction is cut
off, as a truth value, or as a text with blanks around the digits, which may be of any script and be
grouped by single underscores.
-/

set_option autoImplicit false

namespace Spreadsheet

/-- Why a value is no whole number. -/
inductive IntegerFault where
  | notDigits (text : String)
  | notNumber (typeName : String)
  | numeric (fault : NumericFault)

namespace IntegerFault

/-- How much of a quoted text a message shows. -/
def shownLength : Nat := 200

def message : IntegerFault → String
  | notDigits text =>
    "invalid literal for int() with base 10: " ++
      String.ofList ((Text.quoted text).toList.take shownLength)
  | notNumber typeName =>
    "int() argument must be a string, a bytes-like object or a real number, not '" ++ typeName ++
      "'"
  | numeric fault => fault.message

end IntegerFault

namespace Decimal

/-- The blanks that may stand around the digits. -/
def isMargin (c : Char) : Bool := Text.isBlank c && !(0x1c ≤ c.toNat && c.toNat ≤ 0x1f)

/-- The value of a digit, or the underscore that groups digits. -/
inductive Figure where
  | digit (n : Nat)
  | underscore
  deriving DecidableEq

def figure? (c : Char) : Option Figure :=
  if c == '_' then some .underscore else (Text.digitValue? c).map .digit

/-- Whether underscores stand only between two digits, and there is a digit. -/
def areGrouped : List Figure → Bool
  | [.digit _] => true
  | .digit _ :: .underscore :: .digit n :: r => areGrouped (.digit n :: r)
  | .digit _ :: .digit n :: r => areGrouped (.digit n :: r)
  | _ => false

def Figure.digits (figures : List Figure) : List Nat :=
  figures.filterMap fun
    | .digit n => some n
    | .underscore => none

/-- Reads a text as a whole number. -/
def integer (text : String) : Except IntegerFault Int :=
  let (negative, cs) := splitSign (text.toList.dropWhile isMargin)
  let figures := (cs.takeWhile fun c => (figure? c).isSome).filterMap figure?
  let digits := Figure.digits figures
  if !areGrouped figures then .error (.notDigits text)
  else if digitLimit < digits.length then .error (.numeric (.tooManyDigits digits.length))
  else if !(cs.drop figures.length).all isMargin then .error (.notDigits text)
  else
    let n : Nat := digits.foldl (fun n d => n * 10 + d) 0
    .ok (if negative then -(n : Int) else n)

end Decimal

/-- A value as a whole number. -/
def Value.integer : Value → Except IntegerFault Int
  | .int n => .ok n
  | .bool b => .ok (if b then 1 else 0)
  | .float x => (Number.float x).truncate.mapError .numeric
  | .text s => Decimal.integer s
  | v => .error (.notNumber v.typeName)

end Spreadsheet
