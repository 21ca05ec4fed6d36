import Spreadsheet.Number.Binary64
import Spreadsheet.Number.Decimal

/-!
# Decimal text of doubles

`shortest` gives the fewest digits that read back as the same double, and of those the nearest to
it; `significant` rounds to a given count of digits. Two formats are built on them: the full text of
a number, and the text of at most ten digits that a cell displays.
-/

set_option autoImplicit false

namespace Spreadsheet.Decimal

/-- The fraction `num / den * 10 ^ k` as numerator and denominator. -/
def shift (num den : Nat) (k : Int) : Nat × Nat :=
  if k < 0 then (num, den * Nat.pow 10 (-k).toNat) else (num * Nat.pow 10 k.toNat, den)

/-- The place of the decimal point of a positive fraction: the least `p` with
`num / den < 10 ^ p`. -/
def pointPlace (num den : Nat) : Int :=
  let p := ((digits num).length : Int) - (digits den).length
  let (n, d) := shift num den (-p)
  if n < d then p else p + 1

/-- The interval of fractions that read back as `m * 2 ^ e`, as numerators over one denominator:
the lower end, the number itself and the upper end. -/
def readBack (m : Nat) (e : Int) : Nat × Nat × Nat × Nat :=
  let (v, den) := Binary64.fraction m e
  let unit := (Binary64.fraction 1 e).1
  let below := if m == Nat.pow 2 52 && e > Binary64.leastExponent then unit else 2 * unit
  (4 * v - below, 4 * v, 4 * v + 2 * unit, 4 * den)

/-- The nearer to the number of its two neighbours with `n` digits, if one of them reads back. -/
def shortestWith (m : Nat) (e : Int) (point : Int) (n : Nat) : Option Nat :=
  let (low, v, high, den) := readBack m e
  let (s, d) := shift 1 1 ((n : Int) - point)
  let q := v * s / (den * d)
  let inside := fun (c : Nat) =>
    let x := c * den * d
    if m % 2 == 0 then low * s ≤ x && x ≤ high * s else low * s < x && x < high * s
  let downGap := v * s - q * den * d
  let upGap := (q + 1) * den * d - v * s
  if inside q && q != 0 then
    if inside (q + 1) && (upGap < downGap || (upGap == downGap && q % 2 == 1)) then some (q + 1)
    else some q
  else if inside (q + 1) then some (q + 1) else none

/-- The fewest digits that read back as `m * 2 ^ e` for `m` above zero: a whole number and the power
of ten to multiply it by. -/
def shortest (m : Nat) (e : Int) : Nat × Int :=
  let (v, den) := Binary64.fraction m e
  let point := pointPlace v den
  match (List.range 17).findSome? fun n => (shortestWith m e point (n + 1)).map (·, n + 1) with
  | some (c, n) => (c, point - n)
  | none => (m, 0)

/-- A positive fraction rounded to `n` significant digits: a whole number and the power of ten to
multiply it by. -/
def significant (num den n : Nat) : Nat × Int :=
  let k := pointPlace num den - n
  let (a, b) := shift num den (-k)
  (Binary64.roundHalfEven a b, k)

/-- The digits without the zeros at their end. -/
def trimZeros (cs : List Char) : List Char := (cs.reverse.dropWhile (· == '0')).reverse

/-- How a number in decimal digits is laid out. -/
structure Layout where
  /-- Positional while the decimal point falls at most so far to the right of the first digit. -/
  widest : Int
  /-- A whole number is written with a point and a zero. -/
  marksWhole : Bool

/-- The exponent after a mantissa: a sign and two digits or more. -/
def exponentText (x : Int) : List Char :=
  'e' :: (if x < 0 then '-' else '+') :: padded 2 x.natAbs

/-- Lays out the digits `ds`, the first of them not zero, with the decimal point at `point`. -/
def Layout.write (l : Layout) (ds : List Char) (point : Int) : List Char :=
  if -4 < point && point ≤ l.widest then
    if point ≤ 0 then '0' :: '.' :: List.replicate (-point).toNat '0' ++ ds
    else
      let p := point.toNat
      if ds.length ≤ p then
        ds ++ List.replicate (p - ds.length) '0' ++ (if l.marksWhole then ['.', '0'] else [])
      else ds.take p ++ '.' :: ds.drop p
  else
    match ds with
    | d :: [] => d :: exponentText (point - 1)
    | d :: r => d :: '.' :: r ++ exponentText (point - 1)
    | [] => []

/-- The full text: positional below ten to the sixteenth, whole numbers marked. -/
def fullLayout : Layout := ⟨16, true⟩

/-- The display text: ten digits at most, whole numbers plain. -/
def displayLayout : Layout := ⟨10, false⟩

def signed (negative : Bool) (cs : List Char) : String :=
  String.ofList (if negative then '-' :: cs else cs)

/-- The text of a number with the fewest digits that read back. -/
def floatText (x : Float) : String :=
  match Binary64.decode x with
  | .nan => "nan"
  | .infinite negative => signed negative "inf".toList
  | .finite negative m e =>
    if m == 0 then signed negative "0.0".toList
    else
      let (c, k) := shortest m e
      let ds := digits c
      signed negative (fullLayout.write (trimZeros ds) (ds.length + k))

/-- The text of a number rounded to ten significant digits. -/
def displayText (x : Float) : String :=
  match Binary64.decode x with
  | .nan => "nan"
  | .infinite negative => signed negative "inf".toList
  | .finite negative m e =>
    if m == 0 then signed negative "0".toList
    else
      let (v, den) := Binary64.fraction m e
      let (c, k) := significant v den 10
      let ds := digits c
      signed negative (displayLayout.write (trimZeros ds) (ds.length + k))

end Spreadsheet.Decimal
