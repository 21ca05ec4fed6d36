import Spreadsheet.Function

/-!
# The built-in functions

A range arrives as a list, and the functions take its members as if each were an argument. Empty
cells count for nothing.
-/

set_option autoImplicit false

namespace Spreadsheet.Builtin

/-- The arguments with the lists among them opened, one level deep. -/
def flatten (arguments : List Value) : List Value :=
  arguments.flatMap fun
    | .list vs => vs
    | v => [v]

def isNull : Value → Bool
  | .null => true
  | _ => false

def fail {α : Type} (name message : String) : Except FunctionFault α :=
  .error (.formula (.functionFailed name message))

/-- The values as numbers; the first that is none is reported. -/
def asNumbers (name : String) : List Value → Except FunctionFault (List Number)
  | [] => .ok []
  | v :: vs =>
    match v.number? with
    | some n =>
      match asNumbers name vs with
      | .ok ns => .ok (n :: ns)
      | .error fault => .error fault
    | none =>
      if v.isWritable then fail name (name ++ ": expected numbers, got " ++ v.quoted)
      else .error (.numeric .tooLongToWrite)

/-- The numbers among the arguments, which must all be numbers or empty. -/
def numbers (name : String) (arguments : List Value) : Except FunctionFault (List Number) :=
  asNumbers name ((flatten arguments).filter (!isNull ·))

def numeric {α : Type} (result : Except NumericFault α) : Except FunctionFault α :=
  match result with
  | .ok a => .ok a
  | .error fault => .error (.numeric fault)

def sum : Function := fun arguments => do
  let ns ← numbers "SUM" arguments
  return .ofNumber (← numeric (Number.sum ns))

def average : Function := fun arguments => do
  let ns ← numbers "AVERAGE" arguments
  if ns.isEmpty then fail "AVERAGE" "AVERAGE requires at least 1 value"
  else
    let total ← numeric (Number.sum ns)
    return .ofNumber (← numeric (total.div (.int ns.length)))

/-- The member that no other one beats, the first of equals. -/
def best (beats : Number → Number → Bool) (n : Number) (ns : List Number) : Number :=
  ns.foldl (fun current n => if beats n current then n else current) n

def min : Function := fun arguments => do
  match ← numbers "MIN" arguments with
  | [] => fail "MIN" "MIN requires at least 1 value"
  | n :: ns => return .ofNumber (best (fun a b => a.lt b) n ns)

def max : Function := fun arguments => do
  match ← numbers "MAX" arguments with
  | [] => fail "MAX" "MAX requires at least 1 value"
  | n :: ns => return .ofNumber (best (fun a b => b.lt a) n ns)

/-- How many of the values are numbers. -/
def count : Function := fun arguments =>
  .ok (.int ((flatten arguments).filter (·.number?.isSome)).length)

def abs : Function := fun arguments => do
  if arguments.length != 1 then fail "ABS" "ABS requires exactly 1 argument"
  else
    match ← numbers "ABS" arguments with
    | [] => .error .missingArgument
    | n :: _ => return .ofNumber n.abs

/-- Rounds the first number; the second one, if there are just two, tells the decimal places. -/
def round : Function := fun arguments => do
  if arguments.length < 1 || 2 < arguments.length then fail "ROUND" "ROUND requires 1-2 arguments"
  else
    match ← numbers "ROUND" arguments with
    | [] => .error .missingArgument
    | [n, places] => return .ofNumber (← numeric (n.round (← numeric places.truncate)))
    | n :: _ => return .ofNumber (← numeric (n.round 0))

/-- The text of a value in a concatenation: whole doubles are written without a point. -/
def concatText : Value → Except NumericFault String
  | .null => .ok ""
  | .float x =>
    if Binary64.isWhole x then Decimal.write ((Binary64.truncate? x).getD 0)
    else .ok (Decimal.floatText x)
  | v => v.write

def concat : Function := fun arguments => do
  return .text (String.join (← numeric ((flatten arguments).mapM concatText)))

/-- The built-in functions under their names. -/
def registry : Registry :=
  ⟨[("sum", sum), ("average", average), ("min", min), ("max", max), ("count", count), ("abs", abs),
    ("round", round), ("concat", concat)]⟩

end Spreadsheet.Builtin
