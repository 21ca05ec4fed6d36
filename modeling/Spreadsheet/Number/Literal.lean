import Spreadsheet.Number.Binary64
import Spreadsheet.Number.Decimal

/-!
# Reading number literals

A literal of data formats: an optional sign, digits, and for a double also a point with digits or an
exponent.
-/

set_option autoImplicit false

namespace Spreadsheet.Decimal

/-- Takes a sign off the front; true means minus. -/
def splitSign : List Char → Bool × List Char
  | '-' :: cs => (true, cs)
  | '+' :: cs => (false, cs)
  | cs => (false, cs)

/-- Digits as a whole number that may carry a sign. -/
def signedInt? (cs : List Char) : Option Int :=
  let (negative, ds) := splitSign cs
  if ds.isEmpty || !ds.all isDigit then none
  else some (if negative then -(ofDigits ds : Int) else ofDigits ds)

/-- The digits before the exponent and the exponent, zero if there is none. -/
def splitExponent (cs : List Char) : Option (List Char × Int) :=
  let mantissa := cs.takeWhile fun c => c != 'e' && c != 'E'
  match cs.drop mantissa.length with
  | [] => some (mantissa, 0)
  | _ :: exponent => (signedInt? exponent).map (mantissa, ·)

/-- The double that a decimal literal names. -/
def float? (cs : List Char) : Option Float := do
  let (negative, magnitude) := splitSign cs
  let (mantissa, exponent) ← splitExponent magnitude
  let whole := mantissa.takeWhile (· != '.')
  let decimals := (mantissa.drop whole.length).drop 1
  let ds := whole ++ decimals
  if ds.isEmpty || !ds.all isDigit then none
  else some (Binary64.ofDecimal negative (ofDigits ds) (exponent - decimals.length))

end Spreadsheet.Decimal
