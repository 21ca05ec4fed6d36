import Spreadsheet.Text.Quoted

/-!
# Tokens

The words that a formula is made of.
-/

set_option autoImplicit false

namespace Spreadsheet

inductive TokenKind where
  | number
  | text
  | cell
  | identifier
  | operator
  | punctuation
  deriving DecidableEq, Repr

def TokenKind.name : TokenKind → String
  | number => "NUMBER_LITERAL"
  | text => "STRING_LITERAL"
  | cell => "CELL_LITERAL"
  | identifier => "IDENTIFIER"
  | operator => "OPERATOR"
  | punctuation => "PUNCTUATION"

structure Token where
  kind : TokenKind
  /-- The token as it is written. -/
  text : String
  /-- How many characters of the formula come before it. -/
  position : Nat
  deriving DecidableEq, Repr

/-- The token as it appears in a message. -/
def Token.describe (t : Token) : String := t.kind.name ++ "(" ++ Text.quoted t.text ++ ")"

end Spreadsheet
