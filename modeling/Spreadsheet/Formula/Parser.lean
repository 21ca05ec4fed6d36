import Spreadsheet.Formula.Lexer
import Spreadsheet.Formula.Tree
import Spreadsheet.Text.Blank

/-!
# Reading a formula

The grammar, over tokens:

    expression := operand (operator operand)*
    operand    := call | "-" expression | "(" expression ")" | term
    term       := NUMBER | TEXT | CELL | CELL ":" CELL
    call       := IDENTIFIER "(" (expression ("," expression)*)? ")"

A chain of operands is brought into postfix order with a stack of waiting operators, and then
reduced to a tree. Operators of one level group to the left; a minus sign in front of an operand
takes in the whole expression that follows.

A reading step works on the tokens that are left and keeps what it has consumed even when it fails,
so a caller can tell how far it came.

A formula may nest to any depth here. The stack of the interpreter, which the reader and the
evaluation of a deep tree use up, appears only in the resolver, as a number of cells that may wait.
-/

set_option autoImplicit false

namespace Spreadsheet

/-- A step that consumes tokens from the front of the remaining ones. -/
abbrev Reading (α : Type) := EStateM SyntaxFault (List Token) α

inductive PostfixItem where
  | operand (f : Formula)
  | operator (symbol : String)

namespace Reading

/-- Takes the next token; `stop` is where the formula ends. -/
def next (stop : Nat) : Reading Token
  | [] => .error (.unexpectedEnd stop) []
  | t :: ts => .ok t ts

/-- Whether the next token is spelled in one of the given ways, whatever its kind. -/
def isNext (texts : List String) (tokens : List Token) : Bool :=
  match tokens with
  | t :: _ => texts.contains t.text
  | [] => false

def isNextKind (kind : TokenKind) (tokens : List Token) : Bool :=
  match tokens with
  | t :: _ => t.kind == kind
  | [] => false

def nextOperation? (tokens : List Token) : Option Number.Operation :=
  match tokens with
  | t :: _ => if t.kind == .operator then Number.Operation.ofSymbol? t.text else none
  | [] => none

/-- The spellings of the operators, the tighter ones first. -/
def operatorSymbols : List String := ["*", "/", "+", "-"]

def expect (stop : Nat) (texts : List String) : Reading Token := do
  let t ← next stop
  if texts.contains t.text then return t else throw (.unexpectedToken (.oneOf texts) t)

def expectKind (stop : Nat) (kind : TokenKind) : Reading Token := do
  let t ← next stop
  if t.kind = kind then return t else throw (.unexpectedToken (.kind kind) t)

/-- A literal, a cell or a range. -/
def term (stop : Nat) : Reading Formula := do
  let t ← next stop
  if t.kind = .cell && isNext [":"] (← get) then
    let _ ← expect stop [":"]
    let last ← expectKind stop .cell
    return .range t.text last.text
  match t.kind with
  | .number => return .number t.text
  | .text => return .text t.text
  | .cell => return .cell t.text
  | _ => throw (.unexpectedToken .term t)

/-- Reduces a postfix list, given from its end. An operator takes the next reduced item as its right
operand and the one after that as its left. The first argument bounds the depth. -/
def reduce : Nat → EStateM SyntaxFault (List PostfixItem) Formula
  | 0 => throw .incomplete
  | depth + 1 => do
    match ← get with
    | [] => throw .incomplete
    | .operand f :: rest =>
      set rest
      return f
    | .operator symbol :: rest =>
      set rest
      let right ← reduce depth
      let left ← reduce depth
      match Number.Operation.ofSymbol? symbol with
      | some operation => return .binary operation left right
      | none => throw (.unknownOperator symbol)

/-- Moves the waiting operators that bind at least as tightly as `operation` to the postfix list,
both given from their end. -/
def unwind (operation : Number.Operation) :
    List Number.Operation → List PostfixItem → List Number.Operation × List PostfixItem
  | [], postfixItems => ([], postfixItems)
  | o :: waiting, postfixItems =>
    if operation.level ≤ o.level then unwind operation waiting (.operator o.symbol :: postfixItems)
    else (o :: waiting, postfixItems)

def unwindAll (waiting : List Number.Operation) (postfixItems : List PostfixItem) :
    List PostfixItem :=
  waiting.foldl (fun items o => .operator o.symbol :: items) postfixItems

/-- Reduces a complete postfix list, given from its end. -/
def finish (postfixItems : List PostfixItem) : Reading Formula :=
  match reduce (postfixItems.length + 1) postfixItems with
  | .ok f _ => return f
  | .error fault _ => throw fault

mutual

/-- An expression. The number bounds the depth of the descent. -/
def expressionWithin (stop : Nat) : Nat → Reading Formula
  | 0 => throw .incomplete
  | depth + 1 => do
    let first ← operandWithin stop depth
    chainWithin stop depth [] [.operand first]

/-- The rest of an expression, after an operand. -/
def chainWithin (stop : Nat) :
    Nat → List Number.Operation → List PostfixItem → Reading Formula
  | 0, _, _ => throw .incomplete
  | depth + 1, waiting, postfixItems => do
    match nextOperation? (← get) with
    | some operation =>
      let _ ← next stop
      let (waiting, postfixItems) := unwind operation waiting postfixItems
      let f ← operandWithin stop depth
      chainWithin stop depth (operation :: waiting) (.operand f :: postfixItems)
    | none => finish (unwindAll waiting postfixItems)

def operandWithin (stop : Nat) : Nat → Reading Formula
  | 0 => throw .incomplete
  | depth + 1 => do
    let tokens ← get
    if isNextKind .identifier tokens then callWithin stop depth
    else if isNext ["-"] tokens then negativeWithin stop depth
    else if isNext ["("] tokens then parenthesizedWithin stop depth
    else term stop

def negativeWithin (stop : Nat) : Nat → Reading Formula
  | 0 => throw .incomplete
  | depth + 1 => do
    let _ ← expect stop ["-"]
    let f ← expressionWithin stop depth
    return .negative f

def parenthesizedWithin (stop : Nat) : Nat → Reading Formula
  | 0 => throw .incomplete
  | depth + 1 => do
    let _ ← expect stop ["("]
    let f ← expressionWithin stop depth
    let _ ← expect stop [")"]
    return f

def callWithin (stop : Nat) : Nat → Reading Formula
  | 0 => throw .incomplete
  | depth + 1 => do
    let function ← expectKind stop .identifier
    let _ ← expect stop ["("]
    if isNext [")"] (← get) then
      let _ ← expect stop [")"]
      return .call function.text []
    let arguments ← argumentsWithin stop depth
    return .call function.text arguments

/-- One argument or more, and the parenthesis that closes them. -/
def argumentsWithin (stop : Nat) : Nat → Reading (List Formula)
  | 0 => throw .incomplete
  | depth + 1 => do
    let f ← expressionWithin stop depth
    let t ← expect stop [",", ")"]
    if t.text == "," then
      let fs ← argumentsWithin stop depth
      return f :: fs
    return [f]

end

/-- A depth that no descent through the given tokens exceeds. -/
def depthFor (tokens : List Token) : Nat := 3 * tokens.length + 4

def expression (stop : Nat) : Reading Formula := fun ts => expressionWithin stop (depthFor ts) ts

def operand (stop : Nat) : Reading Formula := fun ts => operandWithin stop (depthFor ts) ts

def negative (stop : Nat) : Reading Formula := fun ts => negativeWithin stop (depthFor ts) ts

def parenthesized (stop : Nat) : Reading Formula :=
  fun ts => parenthesizedWithin stop (depthFor ts) ts

def call (stop : Nat) : Reading Formula := fun ts => callWithin stop (depthFor ts) ts

/-- An expression with nothing after it. -/
def complete (stop : Nat) : Reading Formula := do
  let f ← expression stop
  match ← get with
  | [] => return f
  | t :: _ => throw (.unexpectedToken .endOfInput t)

end Reading

/-- Where a formula ends, as far as its tokens tell. -/
def sourceEnd (tokens : List Token) : Nat :=
  match tokens.getLast? with
  | some t => t.position + t.text.length
  | none => 0

namespace Formula

/-- Reads a formula off its tokens. -/
def ofTokens (tokens : List Token) : Except SyntaxFault Formula :=
  match Reading.complete (sourceEnd tokens) tokens with
  | .ok f _ => .ok f
  | .error fault _ => .error fault

/-- The text of a formula without blanks around it and without its leading equals sign. -/
def body (text : String) : String :=
  match Text.strip text.toList with
  | '=' :: cs => String.ofList cs
  | cs => String.ofList cs

/-- Reads a formula off its text. -/
def parse (text : String) : Except SyntaxFault Formula := do
  let tokens ← tokenize (body text)
  ofTokens tokens

end Formula
end Spreadsheet
