/-!
# Plain text

What is printed holds no control sequences for terminals, and each of its lines ends with a line
feed alone. A control sequence is an escape character and a bracket, parameters, further marks, and
one final character.
-/

set_option autoImplicit false

namespace Spreadsheet.CommandLine

/-- The characters of the parameters in a control sequence. -/
def isParameter (c : Char) : Bool := '0' ≤ c && c ≤ '?'

/-- The characters between the parameters and the end of a control sequence. -/
def isIntermediate (c : Char) : Bool := ' ' ≤ c && c ≤ '/'

/-- The characters that end a control sequence. -/
def isFinal (c : Char) : Bool := '@' ≤ c && c ≤ '~'

/-- The length of the control sequence at the front of a text, zero if there is none. -/
def sequenceLength : List Char → Nat
  | '\x1b' :: '[' :: cs =>
    let parameters := (cs.takeWhile isParameter).length
    let intermediates := ((cs.drop parameters).takeWhile isIntermediate).length
    let body := parameters + intermediates
    if (cs.drop body).head?.any isFinal then body + 3 else 0
  | _ => 0

/-- Leaves out the control sequences of a text; `skipped` characters of one are still to come. -/
def withoutSequences (skipped : Nat) : List Char → List Char
  | [] => []
  | c :: cs =>
    match skipped with
    | n + 1 => withoutSequences n cs
    | 0 =>
      match sequenceLength (c :: cs) with
      | n + 1 => withoutSequences n cs
      | 0 => c :: withoutSequences 0 cs

/-- Leaves out each carriage return before a line feed. -/
def unifyLineEnds : List Char → List Char
  | [] => []
  | c :: cs =>
    if c == '\r' && cs.head? == some '\n' then unifyLineEnds cs else c :: unifyLineEnds cs

/-- A text as it is printed. -/
def plainText (s : String) : String :=
  String.ofList (unifyLineEnds (withoutSequences 0 s.toList))

end Spreadsheet.CommandLine
