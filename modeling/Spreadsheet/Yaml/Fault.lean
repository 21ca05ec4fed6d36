import Spreadsheet.Value

/-!
# Faults of documents

Why a document has no value. Most faults lie in its form and are not told apart. How documents are
read is left open for whoever reads files that hold them.
-/

set_option autoImplicit false

namespace Spreadsheet.Yaml

inductive DocumentFault where
  | malformed
  /-- An escape gives a character by a code that none has. -/
  | unknownCharacter (code : Nat)
  | numeric (fault : NumericFault)

namespace DocumentFault

/-- The codes below this bound are looked up at all. -/
def codeBound : Nat := Nat.pow 2 31

def message : DocumentFault → String
  | malformed => "malformed document"
  | unknownCharacter code =>
    if code < codeBound then "chr() arg not in range(0x110000)"
    else "Python int too large to convert to C int"
  | numeric fault => fault.message

/-- Whether the fault lies in what the document says, so that its message tells the user what to do.
The others end a run as they are. -/
def isExplained : DocumentFault → Bool
  | malformed => false
  | unknownCharacter code => code < codeBound
  | numeric fault => !fault.isOutOfRange

end DocumentFault

/-- Gives the value of the document that a text holds. -/
abbrev Reader := List Char → Except DocumentFault Value

end Spreadsheet.Yaml
