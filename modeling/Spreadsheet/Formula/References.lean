import Spreadsheet.Formula.Tree

/-!
# References of a formula

Two views of what a formula refers to. `references` lists coordinates in the order in which
evaluation asks for them, passing over what evaluation will refuse. `mentions` lists addresses for a
reader and reports a bad address as a fault.
-/

set_option autoImplicit false

namespace Spreadsheet

/-- Whether a rectangle is larger than a limit, if there is one. -/
def exceeds (limit : Option Int) (first last : Coordinate) : Bool :=
  match limit with
  | some n => n < Coordinate.rectangleSize first last
  | none => false

namespace Formula

/-- Both corners of a range, the first one read first. -/
def corners (first last : String) : Except Failure (Coordinate × Coordinate) := do
  let a ← Coordinate.ofAddress first
  let b ← Coordinate.ofAddress last
  return (a, b)

/-- Coordinates that can be told from an address; a fault of the formula gives none. -/
def orNone (found : Except Failure (List Coordinate)) : Except Failure (List Coordinate) :=
  match found with
  | .error (.formula _) => .ok []
  | found => found

mutual

/-- The coordinates that a formula refers to, in evaluation order. Malformed addresses and ranges
over the limit are passed over. -/
def references (limit : Option Int) : Formula → Except Failure (List Coordinate)
  | cell address => orNone (return [← Coordinate.ofAddress address])
  | range first last => orNone do
    let (a, b) ← corners first last
    return if exceeds limit a b then [] else Coordinate.rectangle a b
  | negative operand => references limit operand
  | call _ arguments => referencesOfAll limit arguments
  | binary _ left right => return (← references limit left) ++ (← references limit right)
  | text _ => .ok []
  | number _ => .ok []

def referencesOfAll (limit : Option Int) : List Formula → Except Failure (List Coordinate)
  | [] => .ok []
  | f :: fs => return (← references limit f) ++ (← referencesOfAll limit fs)

end

mutual

/-- The addresses that a formula mentions, in order and with repetitions: cells as they are written,
in upper case, and ranges as the addresses of their members or, unexpanded, as one text. -/
def mentions (expand : Bool) : Formula → Except Failure (List String)
  | cell address => .ok [Text.upper address]
  | range first last => do
    if expand then
      let (a, b) ← corners first last
      return (Coordinate.rectangle a b).map (·.address)
    return [rangeText first last]
  | negative operand => mentions expand operand
  | call _ arguments => mentionsOfAll expand arguments
  | binary _ left right => return (← mentions expand left) ++ (← mentions expand right)
  | text _ => .ok []
  | number _ => .ok []

def mentionsOfAll (expand : Bool) : List Formula → Except Failure (List String)
  | [] => .ok []
  | f :: fs => return (← mentions expand f) ++ (← mentionsOfAll expand fs)

end

/-- The mentioned addresses, each once, in the order of their characters. -/
def mentionedOnce (expand : Bool) (f : Formula) : Except Failure (List String) := do
  let all ← f.mentions expand
  return (all.mergeSort fun a b => !decide (b < a)).eraseReps

end Formula
end Spreadsheet
