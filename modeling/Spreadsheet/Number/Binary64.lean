/-!
# Double precision numbers as fractions

A finite double is a whole number times a power of two. `decode` reads that form off the bits, and
`nearest` goes the other way: it finds the double next to a fraction, the even one of two that are
equally near. Reading decimal text, dividing whole numbers and rounding to decimal places all rest
on `nearest`.
-/

set_option autoImplicit false

namespace Spreadsheet

/-- What a double stands for. The finite ones have the magnitude `m * 2 ^ e`. -/
inductive Binary64 where
  | nan
  | infinite (negative : Bool)
  | finite (negative : Bool) (m : Nat) (e : Int)

namespace Binary64

/-- The least exponent of a finite double. -/
def leastExponent : Int := -1074

/-- The greatest exponent of a finite double. -/
def greatestExponent : Int := 971

def ofBits (bits : Nat) : Binary64 :=
  let negative := bits / Nat.pow 2 63 % 2 == 1
  let exponent : Nat := bits / Nat.pow 2 52 % Nat.pow 2 11
  let fraction : Nat := bits % Nat.pow 2 52
  if exponent == 2047 then if fraction == 0 then infinite negative else nan
  else if exponent == 0 then finite negative fraction leastExponent
  else finite negative (Nat.pow 2 52 + fraction) ((exponent : Int) - 1075)

def decode (x : Float) : Binary64 := ofBits x.toBits.toNat

def encode (negative : Bool) (m : Nat) (e : Int) : Float :=
  let sign := if negative then Nat.pow 2 63 else 0
  let magnitude := if m < Nat.pow 2 52 then m else (e + 1075).toNat * Nat.pow 2 52 + (m - Nat.pow 2 52)
  Float.ofBits (UInt64.ofNat (sign + magnitude))

/-- The nearest whole number to a fraction, the even one of two equally near. -/
def roundHalfEven (num den : Nat) : Nat :=
  let q := num / den
  let r := num % den
  if 2 * r > den || (2 * r == den && q % 2 == 1) then q + 1 else q

/-- The fraction `num / den / 2 ^ e` as numerator and denominator. -/
def scale (num den : Nat) (e : Int) : Nat × Nat :=
  if e < 0 then (num * Nat.pow 2 (-e).toNat, den) else (num, den * Nat.pow 2 e.toNat)

/-- The exponent of the double that lies next to `num / den`: the quotient by its power of two has
53 binary digits, unless the exponent is least. -/
def exponentFor (num den : Nat) : Int :=
  let e := (Nat.log2 num : Int) - Nat.log2 den - 52
  let (n, d) := scale num den e
  max leastExponent (if n / d < Nat.pow 2 52 then e - 1 else e)

/-- The double nearest to a fraction, or nothing when that lies beyond the finite ones. -/
def nearest (negative : Bool) (num den : Nat) : Option Float :=
  if num == 0 then some (encode negative 0 leastExponent)
  else
    let e := exponentFor num den
    let (n, d) := scale num den e
    let m := roundHalfEven n d
    let (m, e) := if m == Nat.pow 2 53 then (Nat.pow 2 52, e + 1) else (m, e)
    if e > greatestExponent then none else some (encode negative m e)

/-- The magnitude of a finite double as a fraction. -/
def fraction (m : Nat) (e : Int) : Nat × Nat :=
  if e < 0 then (m, Nat.pow 2 (-e).toNat) else (m * Nat.pow 2 e.toNat, 1)

def infinity (negative : Bool) : Float :=
  Float.ofBits (if negative then 0xfff0000000000000 else 0x7ff0000000000000)

/-- The double nearest to a whole number, or nothing beyond the finite ones. -/
def ofInt (n : Int) : Option Float := nearest (n < 0) n.natAbs 1

/-- The double nearest to `mantissa * 10 ^ exponent`, infinite beyond the finite ones. Exponents so
far out that the answer is plain are not worked out. -/
def ofDecimal (negative : Bool) (mantissa : Nat) (exponent : Int) : Float :=
  let size : Int := (Nat.log2 mantissa : Int) / 3 + 1
  if mantissa == 0 || exponent + size < -400 then encode negative 0 leastExponent
  else if exponent > 400 then infinity negative
  else
    let (num, den) :=
      if exponent < 0 then (mantissa, Nat.pow 10 (-exponent).toNat)
      else (mantissa * Nat.pow 10 exponent.toNat, 1)
    (nearest negative num den).getD (infinity negative)

/-- Whether the number is a whole one. -/
def isWhole (x : Float) : Bool :=
  match decode x with
  | finite _ m e => (fraction m e).1 % (fraction m e).2 == 0
  | _ => false

/-- The whole part of a finite number, cut toward zero. -/
def truncate? (x : Float) : Option Int :=
  match decode x with
  | finite negative m e =>
    let q : Nat := (fraction m e).1 / (fraction m e).2
    some (if negative then -(q : Int) else q)
  | _ => none

end Binary64
end Spreadsheet
