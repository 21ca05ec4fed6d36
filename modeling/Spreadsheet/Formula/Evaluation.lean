import Spreadsheet.Cell
import Spreadsheet.Function
import Spreadsheet.Formula.References

/-!
# Evaluating a formula

The value of a formula, given how cells are settled and functions are called. Operands and arguments
are evaluated from left to right, and the first fault ends the evaluation. The state that settling
cells works on is left open.
-/

set_option autoImplicit false

namespace Spreadsheet

/-- A computation on a state that is kept when it fails. -/
abbrev Evaluation (State : Type) (α : Type) := EStateM Failure State α

namespace Evaluation

variable {State α : Type}

def fail (fault : FormulaFault) : Evaluation State α := throw (.formula fault)

/-- A result that was found without the state. -/
def lift (result : Except Failure α) : Evaluation State α :=
  match result with
  | .ok a => pure a
  | .error failure => throw failure

/-- A numeric result that was found without the state. -/
def numeric (result : Except NumericFault α) : Evaluation State α :=
  match result with
  | .ok a => pure a
  | .error fault => throw (.numeric fault)

/-- Turns a failure into a result. -/
def attempt (x : Evaluation State α) : Evaluation State (Except Failure α) := fun s =>
  match x s with
  | .ok a s => .ok (.ok a) s
  | .error failure s => .ok (.error failure) s

/-- What a computation ends with, whatever becomes of the state. -/
def outcome (x : Evaluation State α) (s : State) : Except Failure α :=
  match x s with
  | .ok a _ => .ok a
  | .error failure _ => .error failure

end Evaluation

/-- What the evaluation of a formula needs from outside. -/
structure Surroundings (State : Type) where
  /-- The most cells that a range may span. -/
  rangeLimit : Option Int
  functions : Registry
  /-- The settled cell at a coordinate. -/
  settle : Coordinate → Evaluation State (Option Cell)
  /-- Notes that a function is about to be called. -/
  noteCall : String → List Value → Evaluation State Unit

/-- Reads the text of a number: a double when it has a point, else a whole number. -/
def Number.ofDigits (digits : String) : Except NumericFault Number :=
  match digits.toList.span (· != '.') with
  | (whole, _ :: decimals) =>
    .ok (.float (Binary64.ofDecimal false (Decimal.ofDigits (whole ++ decimals))
      (-(decimals.length : Int))))
  | (whole, []) =>
    match Decimal.read whole with
    | .ok n => .ok (.int n)
    | .error fault => .error fault

/-- Applies an operation to two numbers. -/
def Number.Operation.apply (operation : Number.Operation) (a b : Number) : Except Failure Number :=
  match operation with
  | .add => (a.add b).mapError .numeric
  | .subtract => (a.sub b).mapError .numeric
  | .multiply => (a.mul b).mapError .numeric
  | .divide => if b.isZero then .error (.formula .divisionByZero) else (a.div b).mapError .numeric

namespace Formula

/-- The text between the quotes of a literal. -/
def unquote (quoted : String) : String := String.ofList (quoted.toList.drop 1).dropLast

/-- The value of a settled cell; the fault of a cell is passed on under the cell's address. -/
def valueOf {State : Type} (address : String) : Option Cell → Evaluation State Value
  | none => return .null
  | some settled =>
    match settled.error with
    | some cause => Evaluation.fail (.dependentCell address cause)
    | none => return settled.value

/-- The values of the cells at some coordinates, the empty ones left out. -/
def members {State : Type} (env : Surroundings State) :
    List Coordinate → Evaluation State (List Value)
  | [] => return []
  | c :: cs => do
    let v ← valueOf c.address (← env.settle c)
    let vs ← members env cs
    match v with
    | .null => return vs
    | v => return v :: vs

def operand {State : Type} (fault : Value → FormulaFault) (v : Value) : Evaluation State Number :=
  match v.number? with
  | some n => return n
  | none => if v.isWritable then Evaluation.fail (fault v) else throw (.numeric .tooLongToWrite)

/-- Calls a function under its name as written, wrapping what goes wrong inside. -/
def callFunction {State : Type} (function : String) (f : Function) (arguments : List Value) :
    Evaluation State Value :=
  match f arguments with
  | .ok v => return v
  | .error (.formula fault) => Evaluation.fail fault
  | .error fault => Evaluation.fail (.functionFailed function (function ++ ": " ++ fault.message))

mutual

def evaluate {State : Type} (env : Surroundings State) : Formula → Evaluation State Value
  | text quoted => return .text (unquote quoted)
  | number digits => return .ofNumber (← Evaluation.numeric (Number.ofDigits digits))
  | cell address => do
    let c ← Evaluation.lift (Coordinate.ofAddress address)
    valueOf (Text.upper address) (← env.settle c)
  | range first last => do
    let (a, b) ← Evaluation.lift (corners first last)
    if exceeds env.rangeLimit a b then
      let size := Coordinate.rectangleSize a b
      let limit := env.rangeLimit.getD 0
      if Decimal.isWritable size && Decimal.isWritable limit then
        Evaluation.fail (.rangeTooLarge (rangeText first last) size limit)
      else throw (.numeric .tooLongToWrite)
    else
      return .list (← members env (Coordinate.rectangle a b))
  | negative f => do
    let n ← operand .notNegatable (← evaluate env f)
    return .ofNumber n.neg
  | call function arguments =>
    match env.functions.byName? function with
    | none => Evaluation.fail (.unknownFunction function env.functions.names)
    | some f => do
      let vs ← evaluateAll env arguments
      env.noteCall (Text.lower function) vs
      callFunction function f vs
  | binary operation left right => do
    let a ← operand (.notNumeric operation.symbol) (← evaluate env left)
    let b ← operand (.notNumeric operation.symbol) (← evaluate env right)
    return .ofNumber (← Evaluation.lift (operation.apply a b))

def evaluateAll {State : Type} (env : Surroundings State) :
    List Formula → Evaluation State (List Value)
  | [] => return []
  | f :: fs => do
    let v ← evaluate env f
    let vs ← evaluateAll env fs
    return v :: vs

end

end Formula
end Spreadsheet
