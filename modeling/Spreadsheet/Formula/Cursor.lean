import Spreadsheet.Formula.Parser

/-!
# A cursor over tokens

Reading steps taken one at a time. The cursor stays where a step has left it, also when the step
failed, and can be set back. A negative position counts from the end: from there the steps go on to
the end, and then from the start.
-/

set_option autoImplicit false

namespace Spreadsheet

structure Cursor where
  tokens : List Token
  position : Int := 0

/-- Why a step of a cursor fails. -/
inductive CursorFault where
  | reading (fault : SyntaxFault)
  /-- The cursor is set back further than there are tokens. -/
  | beforeStart

namespace Cursor

def reset (c : Cursor) (position : Int) : Cursor := { c with position := position }

def atEnd (c : Cursor) : Bool := c.tokens.length ≤ c.position

/-- The tokens from so many places ahead, or back if the number is negative. -/
def ahead (c : Cursor) (offset : Int) : Except CursorFault (List Token) :=
  let position := c.position + offset
  if 0 ≤ position then .ok (c.tokens.drop position.toNat)
  else if c.tokens.length < position.natAbs then .error .beforeStart
  else .ok (c.tokens.drop (c.tokens.length - position.natAbs) ++ c.tokens)

/-- Takes a step, which is told where the formula ends. -/
def step {α : Type} (c : Cursor) (reading : Nat → Reading α) : Except CursorFault α × Cursor :=
  match c.ahead 0 with
  | .error fault => (.error fault, c)
  | .ok remaining =>
    let moved := fun (rest : List Token) =>
      { c with position := c.position + (remaining.length - rest.length : Nat) }
    match reading (sourceEnd c.tokens) remaining with
    | .ok a rest => (.ok a, moved rest)
    | .error fault rest => (.error (.reading fault), moved rest)

end Cursor
end Spreadsheet
