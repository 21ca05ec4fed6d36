/-!
# Ranges of characters

Classes of characters are tables of ranges of code points.
-/

set_option autoImplicit false

namespace Spreadsheet.Text

/-- Whether one of some ranges, both ends included, holds the code point of a character. -/
def isWithin (ranges : List (Nat × Nat)) (c : Char) : Bool :=
  ranges.any fun (first, last) => first ≤ c.toNat && c.toNat ≤ last

end Spreadsheet.Text
