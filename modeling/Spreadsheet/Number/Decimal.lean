/-!
# Whole numbers as decimal text

Whole numbers have no bound, but their text does: reading or writing more than `digitLimit` digits
is refused by the operations that say so.
-/

set_option autoImplicit false

namespace Spreadsheet.Decimal

/-- The most digits of a whole number that are read from text or written to it. -/
def digitLimit : Nat := 4300

/-- The decimal digits of a number, without leading zeros. -/
def digits (n : Nat) : List Char := Nat.toDigits 10 n

def isDigit (c : Char) : Bool := '0' ≤ c && c ≤ '9'

/-- The number that a list of decimal digits spells. -/
def ofDigits (cs : List Char) : Nat := cs.foldl (fun n c => n * 10 + (c.toNat - '0'.toNat)) 0

def natText (n : Nat) : String := String.ofList (digits n)

/-- The decimal text of a whole number of any size. -/
def intText (n : Int) : String :=
  if n < 0 then String.ofList ('-' :: digits n.natAbs) else natText n.natAbs

/-- Whether the decimal text of a whole number stays within the limit. -/
def isWritable (n : Int) : Bool := (digits n.natAbs).length ≤ digitLimit

/-- Puts zeros in front until the text has `width` digits. -/
def padded (width n : Nat) : List Char :=
  let ds := digits n
  List.replicate (width - ds.length) '0' ++ ds

end Spreadsheet.Decimal
