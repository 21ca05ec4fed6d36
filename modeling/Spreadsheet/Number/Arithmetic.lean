import Spreadsheet.Number.Binary64
import Spreadsheet.Number.Decimal

/-!
# Arithmetic on whole numbers and doubles

Whole numbers are exact and have no bound. An operation on two of them stays whole, division aside;
with a double on either side both are taken as doubles. Division of whole numbers gives the nearest
double to the quotient. Comparison is exact whatever the two sides are.
-/

set_option autoImplicit false

namespace Spreadsheet

/-- A number a formula can compute with. -/
inductive Number where
  | int (n : Int)
  | float (x : Float)

/-- Why a numeric operation has no answer. -/
inductive NumericFault where
  /-- A whole number is spelled with more digits than are read. -/
  | tooManyDigits (count : Nat)
  /-- A whole number has more digits than are written. -/
  | tooLongToWrite
  /-- A whole number to some base is spelled without a digit. -/
  | noDigits (base : Nat)
  | integerBeyondFloat
  | quotientBeyondFloat
  | roundedBeyondFloat
  | infinityToInteger
  | nanToInteger

namespace NumericFault

def message : NumericFault → String
  | tooManyDigits count =>
    "Exceeds the limit (" ++ Decimal.natText Decimal.digitLimit ++
      " digits) for integer string conversion: value has " ++ Decimal.natText count ++
      " digits; use sys.set_int_max_str_digits() to increase the limit"
  | tooLongToWrite =>
    "Exceeds the limit (" ++ Decimal.natText Decimal.digitLimit ++
      " digits) for integer string conversion; " ++
      "use sys.set_int_max_str_digits() to increase the limit"
  | noDigits base => "invalid literal for int() with base " ++ Decimal.natText base ++ ": ''"
  | integerBeyondFloat => "int too large to convert to float"
  | quotientBeyondFloat => "integer division result too large for a float"
  | roundedBeyondFloat => "rounded value too large to represent"
  | infinityToInteger => "cannot convert float infinity to integer"
  | nanToInteger => "cannot convert float NaN to integer"

/-- Whether a number has no counterpart of the other kind because of its size. -/
def isOutOfRange : NumericFault → Bool
  | integerBeyondFloat => true
  | quotientBeyondFloat => true
  | roundedBeyondFloat => true
  | infinityToInteger => true
  | _ => false

end NumericFault

namespace Decimal

/-- Reads decimal digits as a whole number of at most `digitLimit` digits. -/
def read (cs : List Char) : Except NumericFault Nat :=
  if cs.length ≤ digitLimit then .ok (ofDigits cs) else .error (.tooManyDigits cs.length)

/-- Writes a whole number of at most `digitLimit` digits. -/
def write (n : Int) : Except NumericFault String :=
  if isWritable n then .ok (intText n) else .error .tooLongToWrite

end Decimal

namespace Number

/-- The operators between two operands. -/
inductive Operation where
  | add
  | subtract
  | multiply
  | divide
  deriving DecidableEq, Repr

/-- The number as a double. -/
def toFloat : Number → Except NumericFault Float
  | int n =>
    match Binary64.ofInt n with
    | some x => .ok x
    | none => .error .integerBeyondFloat
  | float x => .ok x

def neg : Number → Number
  | int n => int (-n)
  | float x => float (-x)

def abs : Number → Number
  | int n => int n.natAbs
  | float x => float x.abs

def isNan : Number → Bool
  | int _ => false
  | float x => x.isNaN

def isZero : Number → Bool
  | int n => n == 0
  | float x => x == 0.0

/-- Computes on whole numbers, or on doubles once either side is one. -/
def lift (onInts : Int → Int → Int) (onFloats : Float → Float → Float) :
    Number → Number → Except NumericFault Number
  | int a, int b => .ok (int (onInts a b))
  | a, b => do
    let x ← a.toFloat
    let y ← b.toFloat
    return float (onFloats x y)

def add : Number → Number → Except NumericFault Number := lift (· + ·) (· + ·)

def sub : Number → Number → Except NumericFault Number := lift (· - ·) (· - ·)

def mul : Number → Number → Except NumericFault Number := lift (· * ·) (· * ·)

/-- The quotient of two numbers, the second of them not zero. The sign of a whole quotient is
negative when exactly one side is, also for the quotient zero. -/
def div : Number → Number → Except NumericFault Number
  | int a, int b =>
    match Binary64.nearest ((a < 0) != (b < 0)) a.natAbs b.natAbs with
    | some x => .ok (float x)
    | none => .error .quotientBeyondFloat
  | a, b => do
    let x ← a.toFloat
    let y ← b.toFloat
    return float (x / y)

/-- Whether a whole number lies below a double, compared without rounding. -/
def intLtFloat (n : Int) (x : Float) : Bool :=
  match Binary64.decode x with
  | .nan => false
  | .infinite negative => !negative
  | .finite negative m e =>
    let (v, den) := Binary64.fraction m e
    n * den < (if negative then -(v : Int) else v)

/-- Whether a double lies below a whole number, compared without rounding. -/
def floatLtInt (x : Float) (n : Int) : Bool :=
  match Binary64.decode x with
  | .nan => false
  | .infinite negative => negative
  | .finite negative m e =>
    let (v, den) := Binary64.fraction m e
    (if negative then -(v : Int) else v) < n * den

def lt : Number → Number → Bool
  | int a, int b => a < b
  | int a, float y => intLtFloat a y
  | float x, int b => floatLtInt x b
  | float x, float y => x < y

/-- The whole part of a number, cut toward zero. -/
def truncate : Number → Except NumericFault Int
  | int n => .ok n
  | float x =>
    match Binary64.decode x with
    | .nan => .error .nanToInteger
    | .infinite _ => .error .infinityToInteger
    | .finite .. => .ok ((Binary64.truncate? x).getD 0)

/-- The sum of some numbers, added from left to right. -/
def sum (ns : List Number) : Except NumericFault Number := ns.foldlM add (int 0)

/-- A whole number rounded to `places` decimal places, to the even neighbour at the half. Only
negative places change it. -/
def roundInt (n places : Int) : Int :=
  if 0 ≤ places then n
  else
    let k := places.natAbs
    if (Decimal.digits n.natAbs).length < k then 0
    else
      let q : Nat := Binary64.roundHalfEven n.natAbs (Nat.pow 10 k) * Nat.pow 10 k
      if n < 0 then -(q : Int) else q

/-- A double rounded to `places` decimal places of its exact value, to the even digit at the half.
Beyond the places that a double can have, it stays as it is or becomes zero. -/
def roundFloat (x : Float) (places : Int) : Except NumericFault Float :=
  match Binary64.decode x with
  | .finite negative m e =>
    if m == 0 || 323 < places then .ok x
    else if places < -308 then .ok (0.0 * x)
    else
      let (v, den) := Binary64.fraction m e
      let rounded :=
        if places < 0 then
          let p := Nat.pow 10 places.natAbs
          Binary64.nearest negative (Binary64.roundHalfEven v (den * p) * p) 1
        else
          let p := Nat.pow 10 places.natAbs
          Binary64.nearest negative (Binary64.roundHalfEven (v * p) den) p
      match rounded with
      | some y => .ok y
      | none => .error .roundedBeyondFloat
  | _ => .ok x

def round (places : Int) : Number → Except NumericFault Number
  | int n => .ok (int (roundInt n places))
  | float x => float <$> roundFloat x places

end Number
end Spreadsheet
