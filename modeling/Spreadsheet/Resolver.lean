import Spreadsheet.Formula.Evaluation
import Spreadsheet.Formula.Parser
import Std.Data.HashMap

/-!
# Resolving cells

A resolver settles cells on demand. A formula cell is evaluated when it is asked for, and the cells
that its formula names are settled on the way; a cell that waits for itself is a circular reference.
With memory on, settled cells are kept for the rest of the session, and before a request is answered
everything it depends on is settled, deepest cells first, so that an evaluation finds what it asks
for. Cells on or above a cycle are left to the evaluation, which reports the cycle.

The journal of a session lists what happened, for counting and for stating what the resolver does.

The stack of the interpreter that runs a resolver is modelled only as a number of cells that may
wait for one another. What one formula takes of it while it is read or evaluated is not counted.
-/

set_option autoImplicit false

namespace Spreadsheet

/-- What a resolver works with. -/
structure EvaluationContext where
  grid : Grid := .empty
  functions : Registry := {}
  /-- The most cells that a range may span. -/
  rangeLimit : Option Int := none
  /-- Whether settled cells are kept. -/
  memoize : Bool := true
  /-- How many cells may wait for one another. -/
  nestingLimit : Nat := 150

/-- An event of a session. -/
inductive Moment where
  /-- The grid was asked for a cell. -/
  | lookup (c : Coordinate)
  /-- The evaluation of a cell's formula began. -/
  | start (c : Coordinate)
  /-- The evaluation of a cell's formula ended, with a value or not. -/
  | finish (c : Coordinate)
  /-- A settled cell was kept. -/
  | keep (c : Coordinate)
  /-- A function was called. -/
  | call (key : String) (arguments : List Value)

/-- What a resolver remembers between requests. -/
structure Session where
  /-- The settled cells, with nothing where the grid has nothing. -/
  settled : Std.HashMap Coordinate (Option Cell) := ∅
  /-- What happened, the latest first. -/
  journal : List Moment := []

namespace Resolver

/-- A step of a resolver. -/
abbrev Step (α : Type) := Evaluation Session α

def note (m : Moment) : Step Unit := modify fun s => { s with journal := m :: s.journal }

def lookup (ctx : EvaluationContext) (c : Coordinate) : Step (Option Cell) := do
  note (.lookup c)
  return ctx.grid.get? c

def keep (c : Coordinate) (cell : Option Cell) : Step Unit := do
  note (.keep c)
  modify fun s => { s with settled := s.settled.insert c cell }

def formulaOf (cell : Option Cell) : Option String := cell.bind (·.formula)

/-- The cycle that closes when `c` is asked for again while it waits. The waiting cells are given
from the innermost one outwards. -/
def cyclePath (waiting : List Coordinate) (c : Coordinate) : List Coordinate :=
  c :: ((waiting.takeWhile (· != c)).reverse ++ [c])

/-- The tree of a formula cell: the one at hand, or else the one that its text spells. -/
def treeOf (text : String) (tree : Option Formula) : Step Formula :=
  match tree with
  | some f => return f
  | none =>
    match Formula.parse text with
    | .ok f => return f
    | .error fault => Evaluation.fail (.parsing fault)

/-- What a formula cell settles to once its formula is evaluated. A fault of the formula becomes the
error of the cell, and is reported under the cell's address, which must exist for that; a circular
reference settles nothing. -/
def settledCell (c : Coordinate) (text : String) : Except Failure Value → Except Failure Cell
  | .ok v => .ok { value := v, formula := some text }
  | .error (.formula fault) =>
    if fault.isCircular then .error (.formula fault)
    else
      match c.toAddress with
      | .ok _ => .ok { error := some fault.message, formula := some text }
      | .error failure => .error failure
  | .error failure => .error failure

def areSettled (cs : List Coordinate) : Step Bool := do
  let s ← get
  return cs.all (s.settled.contains ·)

/-- The references of a formula cell whose tree is known. -/
def referencesOf (ctx : EvaluationContext) (tree : Option Formula) : Step (List Coordinate) :=
  match tree with
  | some f => Evaluation.lift (f.references ctx.rangeLimit)
  | none => return []

/-- The failure that nesting beyond the limit is reported with: under the address of the cell that
was asked for, if it was a cell, and then the address must exist. -/
def depthFailure : Except Failure (Option String) → Failure
  | .ok address => .formula (.nestedTooDeeply address)
  | .error failure => failure

/-- Reports nesting beyond the limit as a fault of what was asked for. -/
def reportDepth {State α : Type} (address : Except Failure (Option String))
    (x : Evaluation State α) : Evaluation State α := do
  match ← Evaluation.attempt x with
  | .ok a => return a
  | .error .tooDeep => throw (depthFailure address)
  | .error failure => throw failure

/-- A way to run a resolver on a state that its session is a part of. -/
structure Mode (State : Type) where
  /-- Does a step of the session. -/
  perform : {α : Type} → Step α → Evaluation State α
  /-- Whether a cell waits, where these cells were entered on the way to it. -/
  waits : List Coordinate → Coordinate → Evaluation State Bool
  /-- Ends in the circular reference to a cell that waits. -/
  refuse : List Coordinate → Coordinate → Evaluation State (Option Cell)
  /-- What is done when a function is called, before it gives its result. -/
  call : String → List Value → Evaluation State Unit

namespace Mode

variable {State : Type} (m : Mode State)

/-- What the evaluation of formulas needs, with a way to settle cells. -/
def surroundings (ctx : EvaluationContext) (settle : Coordinate → Evaluation State (Option Cell)) :
    Surroundings State where
  rangeLimit := ctx.rangeLimit
  functions := ctx.functions
  settle := settle
  noteCall := m.call

def compute (ctx : EvaluationContext) (settle : Coordinate → Evaluation State (Option Cell))
    (c : Coordinate) (text : String) (tree : Option Formula) : Evaluation State Cell := do
  m.perform (note (.start c))
  let result ← Evaluation.attempt do
    let f ← m.perform (treeOf text tree)
    f.evaluate (m.surroundings ctx settle)
  m.perform (note (.finish c))
  Evaluation.lift (settledCell c text result)

/-- Settles a cell, with a way to compute a formula cell from its text. -/
def settle (ctx : EvaluationContext) (waiting : List Coordinate) (c : Coordinate)
    (next : String → Evaluation State Cell) : Evaluation State (Option Cell) := do
  match (← m.perform get).settled[c]? with
  | some cell => return cell
  | none =>
    if ← m.waits waiting c then m.refuse waiting c
    else
      let found ← m.perform (lookup ctx c)
      let cell ←
        match formulaOf found with
        | none => pure found
        | some text => some <$> next text
      if ctx.memoize then m.perform (keep c cell)
      return cell

/-- Settles a cell. The number tells how many more formula cells may wait at once. -/
def resolve (ctx : EvaluationContext) :
    Nat → List Coordinate → Coordinate → Evaluation State (Option Cell)
  | 0, waiting, c => m.settle ctx waiting c fun _ => throw .tooDeep
  | depth + 1, waiting, c => m.settle ctx waiting c fun text =>
      m.compute ctx (resolve ctx depth (c :: waiting)) c text none

/-- Settles what a formula cell depends on, with a way to prepare its references, and then the cell,
unless one of the references stays unsettled. Cells that are met on the way are added to the ones
met before. -/
def prepareFormula (ctx : EvaluationContext)
    (prepare : List Coordinate → Coordinate → Evaluation State (List Coordinate))
    (met : List Coordinate) (c : Coordinate) (text : String) :
    Evaluation State (List Coordinate) := do
  let tree := (Formula.parse text).toOption
  let references ← m.perform (referencesOf ctx tree)
  let met ← references.foldlM prepare (c :: met)
  if ← m.perform (areSettled references) then
    let cell ← m.compute ctx (m.resolve ctx (ctx.nestingLimit - 1) [c]) c text tree
    m.perform (keep c (some cell))
  return met

/-- Keeps a cell without a formula, with a way to go on from the text of a formula cell. Formula
cells met before and cells that wait are passed over. -/
def visit (ctx : EvaluationContext) (met : List Coordinate) (c : Coordinate)
    (next : String → Evaluation State (List Coordinate)) : Evaluation State (List Coordinate) := do
  if (← m.perform get).settled.contains c || met.contains c || (← m.waits [] c) then return met
  else
    let found ← m.perform (lookup ctx c)
    match formulaOf found with
    | none =>
      m.perform (keep c found)
      return met
    | some text => next text

/-- Settles what can be settled of a cell and all that it depends on. The result adds the formula
cells met now to those met before in this pass. The number bounds the depth of the walk. -/
def prepare (ctx : EvaluationContext) :
    Nat → List Coordinate → Coordinate → Evaluation State (List Coordinate)
  | 0, met, c => m.visit ctx met c fun _ => return met
  | depth + 1, met, c => m.visit ctx met c (m.prepareFormula ctx (prepare ctx depth) met c)

/-- Settles what can be settled of some roots and all that they depend on. -/
def prepareAll (ctx : EvaluationContext) (roots : List Coordinate) : Evaluation State Unit := do
  if ctx.memoize then
    let _ ← roots.foldlM (m.prepare ctx ctx.grid.size) []

/-- Settles the cell at a coordinate without preparing what it depends on. -/
def resolveCell (ctx : EvaluationContext) (c : Coordinate) : Evaluation State (Option Cell) :=
  m.resolve ctx ctx.nestingLimit [] c

def evaluate (ctx : EvaluationContext) (f : Formula) : Evaluation State Value := do
  let roots ← Evaluation.lift (f.references ctx.rangeLimit)
  m.prepareAll ctx roots
  reportDepth (.ok none) (f.evaluate (m.surroundings ctx (m.resolveCell ctx)))

def evaluateCell (ctx : EvaluationContext) (c : Coordinate) : Evaluation State (Option Cell) := do
  m.prepareAll ctx [c]
  reportDepth (some <$> c.toAddress) (m.resolveCell ctx c)

end Mode

/-! ## The mode of a session by itself -/

/-- Nothing is done beside the session. A cell waits when it was entered on the way. -/
def plain : Mode Session where
  perform x := x
  waits waiting c := return waiting.contains c
  refuse waiting c := Evaluation.fail (.circular (cyclePath waiting c))
  call key arguments := note (.call key arguments)

def surroundings (ctx : EvaluationContext) (settle : Coordinate → Step (Option Cell)) :
    Surroundings Session := plain.surroundings ctx settle

def compute (ctx : EvaluationContext) (settle : Coordinate → Step (Option Cell)) (c : Coordinate)
    (text : String) (tree : Option Formula) : Step Cell := plain.compute ctx settle c text tree

def resolve (ctx : EvaluationContext) (depth : Nat) (waiting : List Coordinate) (c : Coordinate) :
    Step (Option Cell) := plain.resolve ctx depth waiting c

def prepareFormula (ctx : EvaluationContext)
    (prepare : List Coordinate → Coordinate → Step (List Coordinate)) (met : List Coordinate)
    (c : Coordinate) (text : String) : Step (List Coordinate) :=
  plain.prepareFormula ctx prepare met c text

def prepare (ctx : EvaluationContext) (depth : Nat) (met : List Coordinate) (c : Coordinate) :
    Step (List Coordinate) := plain.prepare ctx depth met c

def prepareAll (ctx : EvaluationContext) (roots : List Coordinate) : Step Unit :=
  plain.prepareAll ctx roots

def resolveCell (ctx : EvaluationContext) (c : Coordinate) : Step (Option Cell) :=
  plain.resolveCell ctx c

def evaluate (ctx : EvaluationContext) (f : Formula) : Step Value := plain.evaluate ctx f

def evaluateCell (ctx : EvaluationContext) (c : Coordinate) : Step (Option Cell) :=
  plain.evaluateCell ctx c

/-- The value of a formula given by its text. -/
def evaluateText (ctx : EvaluationContext) (text : String) : Step Value := do
  evaluate ctx (← treeOf text none)

/-- The cell that reports why it could not be settled. -/
def failedCell (source : Cell) (fault : FormulaFault) : Cell :=
  { error := some fault.message, formula := source.formula }

/-- Whether a fault of one cell is reported in that cell when all cells are settled. -/
def endsCellOnly : FormulaFault → Bool
  | .circular _ => true
  | .nestedTooDeeply _ => true
  | _ => false

/-- What a whole pass records for an entry of the grid: its settled cell, if there is one, or the
fault that ends only this cell. -/
def settledEntry (entry : Coordinate × Cell) :
    Except Failure (Option Cell) → Except Failure (Option (Coordinate × Cell))
  | .ok cell => .ok (cell.map (entry.1, ·))
  | .error (.formula fault) =>
    if endsCellOnly fault then .ok (some (entry.1, failedCell entry.2 fault))
    else .error (.formula fault)
  | .error failure => .error failure

/-- Settles one cell of a whole pass, if there is one. -/
def evaluateEntry (ctx : EvaluationContext) (entry : Coordinate × Cell) :
    Step (Option (Coordinate × Cell)) := do
  let result ← Evaluation.attempt (evaluateCell ctx entry.1)
  Evaluation.lift (settledEntry entry result)

/-- Settles the cells of some entries in their order. -/
def evaluateEntries (ctx : EvaluationContext) :
    List (Coordinate × Cell) → Step (List (Coordinate × Cell))
  | [] => return []
  | entry :: rest => do
    let settled ← evaluateEntry ctx entry
    let others ← evaluateEntries ctx rest
    return settled.toList ++ others

/-- Settles every cell of the grid, in the order of the grid. A cell on a cycle is reported with the
cycle as its error. -/
def evaluateGrid (ctx : EvaluationContext) : Step (List (Coordinate × Cell)) :=
  evaluateEntries ctx ctx.grid.entries

end Resolver
end Spreadsheet
