import Spreadsheet.Value
import Spreadsheet.Coordinate
import Spreadsheet.Formula.Token

/-!
# Faults

What can be wrong with a formula, kept as causes. Syntax faults are found while a formula is read;
the others while it is evaluated. A numeric fault is not a fault of the formula: it is never
recorded in a cell and ends the whole evaluation, as does nesting beyond the limit.
-/

set_option autoImplicit false

namespace Spreadsheet

/-- What the reader of a formula was looking for. -/
inductive Expectation where
  /-- One of some spellings. -/
  | oneOf (texts : List String)
  | kind (k : TokenKind)
  | endOfInput
  /-- A literal or a reference. -/
  | term

inductive SyntaxFault where
  | unexpectedCharacter (c : Char) (position : Nat)
  | unexpectedEnd (position : Nat)
  | unexpectedToken (expected : Expectation) (found : Token)
  /-- An operator list ran out of operands. -/
  | incomplete
  | unknownOperator (symbol : String)

namespace Expectation

/-- What was expected, in words; a term has no words of its own. -/
def describe? : Expectation → Option String
  | oneOf texts => some (String.intercalate " or " (texts.map Text.quoted))
  | kind k => some k.name
  | endOfInput => some "end of input"
  | term => none

end Expectation

namespace SyntaxFault

def position? : SyntaxFault → Option Nat
  | unexpectedCharacter _ position => some position
  | unexpectedEnd position => some position
  | unexpectedToken _ found => some found.position
  | incomplete => none
  | unknownOperator _ => none

/-- What is wrong, without the position. -/
def summary : SyntaxFault → String
  | unexpectedCharacter c _ => "Unexpected character " ++ Text.quoted (String.singleton c)
  | unexpectedEnd _ => "Unexpected end of input"
  | unexpectedToken .term found => "Unexpected " ++ found.kind.name ++ " " ++ Text.quoted found.text
  | unexpectedToken (.kind k) found =>
    "Expected " ++ k.name ++ " but found " ++ found.kind.name ++ " " ++ Text.quoted found.text
  | unexpectedToken expected found =>
    "Expected " ++ expected.describe?.getD "" ++ " but found " ++ Text.quoted found.text
  | incomplete => "Unexpected end of expression"
  | unknownOperator symbol => "Unknown binary operator " ++ Text.quoted symbol

def kindName : SyntaxFault → String
  | unexpectedCharacter .. => "LexError"
  | unexpectedEnd _ => "UnexpectedEndOfInputError"
  | unexpectedToken .. => "UnexpectedTokenError"
  | incomplete => "MalformedExpressionError"
  | unknownOperator _ => "MalformedExpressionError"

def message (f : SyntaxFault) : String :=
  "Formula parse error: " ++ f.summary ++
    match f.position? with
    | some p => " (at position " ++ Decimal.natText p ++ ")"
    | none => ""

end SyntaxFault

inductive FormulaFault where
  | parsing (fault : SyntaxFault)
  | malformedAddress (address : String)
  | rowZero (address : String)
  | outsideGrid (c : Coordinate)
  | functionFailed (function message : String)
  | unknownFunction (function : String) (available : List String)
  | notNumeric (symbol : String) (operand : Value)
  | notNegatable (operand : Value)
  | divisionByZero
  | dependentCell (address cause : String)
  | rangeTooLarge (range : String) (size limit : Int)
  | nestedTooDeeply (address : Option String)
  | circular (path : List Coordinate)

namespace FormulaFault

/-- The text that marks a circular reference. -/
def circularMark : String := "Circular cell reference"

/-- A coordinate pair as a message shows it. -/
def pairText (c : Coordinate) : String :=
  "(" ++ Decimal.intText c.row ++ ", " ++ Decimal.intText c.column ++ ")"

def message : FormulaFault → String
  | parsing fault => fault.message
  | malformedAddress address => .join ["Invalid cell address: ", Text.quoted address]
  | rowZero address => .join ["Invalid cell address: ", Text.quoted address, " (rows start at 1)"]
  | outsideGrid c => .join ["Invalid coordinate: ", pairText c]
  | functionFailed function message =>
    if message == "" then .join ["Unknown function: ", Text.quoted function] else message
  | unknownFunction function _ => .join ["Unknown function ", Text.quoted function]
  | notNumeric symbol operand =>
    .join ["Invalid argument for operator ", symbol, ": ", operand.quoted]
  | notNegatable operand => .join ["Cannot get negative of non-number ", operand.quoted]
  | divisionByZero => "Cannot divide by 0"
  | dependentCell address _ => .join ["Error found in dependent cell ", Text.quoted address]
  | rangeTooLarge range size limit =>
    .join ["Range ", range, " spans ", Decimal.intText size, " cells (limit ",
      Decimal.intText limit, ")"]
  | nestedTooDeeply none => "Formula evaluation nested too deeply"
  | nestedTooDeeply (some address) =>
    .join ["Formula evaluation nested too deeply (resolving ", address, ")"]
  | circular path => .join [circularMark, ": ", String.intercalate " -> " (path.map (·.address))]

def kindName : FormulaFault → String
  | parsing fault => fault.kindName
  | malformedAddress _ => "MalformedAddressError"
  | rowZero _ => "MalformedAddressError"
  | outsideGrid _ => "MalformedAddressError"
  | functionFailed .. => "FormulaFunctionError"
  | unknownFunction .. => "UnknownFunctionError"
  | notNumeric .. => "NonNumericOperandError"
  | notNegatable _ => "NonNumericOperandError"
  | divisionByZero => "DivisionByZeroError"
  | dependentCell .. => "DependentCellError"
  | rangeTooLarge .. => "RangeTooLargeError"
  | nestedTooDeeply _ => "EvaluationDepthError"
  | circular _ => "CircularReferenceError"

/-- Circular references are told apart because they are never recorded in the cell that meets
them. -/
def isCircular : FormulaFault → Bool
  | circular _ => true
  | _ => false

end FormulaFault

/-- Why an evaluation gave no value. -/
inductive Failure where
  | formula (fault : FormulaFault)
  | numeric (fault : NumericFault)
  /-- Cells wait for one another deeper than the limit allows. -/
  | tooDeep

def Failure.message : Failure → String
  | formula fault => fault.message
  | numeric fault => fault.message
  | tooDeep => "maximum recursion depth exceeded"

end Spreadsheet
