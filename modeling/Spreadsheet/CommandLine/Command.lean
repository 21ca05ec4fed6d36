import Spreadsheet.CommandLine.Arguments
import Spreadsheet.EventLog
import Spreadsheet.Integer
import Spreadsheet.Settings

/-!
# Commands

What the command line can be asked to do, how a command is read off its arguments, and what it takes
to be there among the files.
-/

set_option autoImplicit false

namespace Spreadsheet.CommandLine

inductive Command where
  /-- Evaluate a formula, on the cells of a sheet file if one is given. -/
  | eval (formula : String) (sheet : Option String) (asJson : Bool)
  /-- Evaluate all cells of a sheet file. -/
  | sheet (file : String) (asJson : Bool)
  /-- List the tokens of a formula. -/
  | tokens (formula : String)
  /-- Show the tree of a formula. -/
  | tree (formula : String) (asJson : Bool)
  /-- List the cells that a formula refers to. -/
  | refs (formula : String) (expand : Bool)
  /-- Write the initial settings file of a directory. -/
  | init (directory : String)
  /-- Show the events of a log. -/
  | events (directory : String) (level type : Option String) (limit : Int)

namespace Command

def names : List String := ["eval", "sheet", "tokens", "tree", "refs", "init", "events"]

/-- The levels that events can be filtered by. -/
def levels : List String := ["info", "warning", "error"]

/-- The most events that are shown unless another number is asked for. -/
def shownEvents : Int := 100

def json : OptionKind := ⟨"--json", false⟩

end Command

/-! ## Reading commands -/

/-- Why there is no command. -/
inductive Refusal where
  /-- The command is not used as it should be. -/
  | misused
  | file (fault : FileFault)

namespace Command

def sorted (kinds : List OptionKind) (arguments : List String) : Except Refusal Arguments :=
  match Arguments.sort kinds true arguments with
  | some a => .ok a
  | none => .error .misused

/-- Asks an argument, if it is given, to be the text of a path. -/
def checkPath (typed : Option String) : Except Refusal Unit :=
  if typed.any (·.toList.contains '\x00') then .error (.file .nullCharacter) else .ok ()

def only (a : Arguments) : Except Refusal String :=
  match a.positional with
  | [argument] => .ok argument
  | _ => .error .misused

def onlyPath (a : Arguments) : Except Refusal String := do
  checkPath a.positional.head?
  only a

def ofEval (arguments : List String) : Except Refusal Command := do
  let a ← sorted [⟨"--sheet", true⟩, json] arguments
  checkPath (a.value? "--sheet")
  return .eval (← only a) (a.value? "--sheet") (a.has "--json")

def ofSheet (arguments : List String) : Except Refusal Command := do
  let a ← sorted [json] arguments
  return .sheet (← onlyPath a) (a.has "--json")

def ofTokens (arguments : List String) : Except Refusal Command := do
  return .tokens (← only (← sorted [] arguments))

def ofTree (arguments : List String) : Except Refusal Command := do
  let a ← sorted [json] arguments
  return .tree (← only a) (a.has "--json")

def ofRefs (arguments : List String) : Except Refusal Command := do
  let a ← sorted [⟨"--no-expand", false⟩] arguments
  return .refs (← only a) (!a.has "--no-expand")

def ofInit (arguments : List String) : Except Refusal Command := do
  let a ← sorted [] arguments
  if a.positional.isEmpty then return .init "." else return .init (← onlyPath a)

/-- The most events to show, as an option gives it. -/
def limitOf (text : Option String) : Except Refusal Int :=
  match text.map Decimal.integer with
  | none => .ok shownEvents
  | some (.ok limit) => .ok limit
  | some (.error _) => .error .misused

def ofEvents (arguments : List String) : Except Refusal Command := do
  let a ← sorted [⟨"--level", true⟩, ⟨"--type", true⟩, ⟨"--limit", true⟩] arguments
  let level := a.value? "--level"
  if !level.all levels.contains then throw .misused
  let limit ← limitOf (a.value? "--limit")
  return .events (← onlyPath a) level (a.value? "--type") limit

def ofArguments (name : String) (arguments : List String) : Except Refusal Command :=
  match name with
  | "eval" => ofEval arguments
  | "sheet" => ofSheet arguments
  | "tokens" => ofTokens arguments
  | "tree" => ofTree arguments
  | "refs" => ofRefs arguments
  | "init" => ofInit arguments
  | "events" => ofEvents arguments
  | _ => .error .misused

end Command

/-! ## Paths of a command -/

def isFile (files : Files) (typed : String) : Bool :=
  match files.findTyped typed with
  | .ok (.file _) => true
  | _ => false

def isDirectory (files : Files) (typed : String) : Bool :=
  match files.findTyped typed with
  | .ok .directory => true
  | _ => false

namespace Command

/-- Whether the files that a command is given are there, and what must be no file is none. -/
def isUsable (files : Files) : Command → Bool
  | eval _ file _ => file.all (CommandLine.isFile files)
  | sheet file _ => CommandLine.isFile files file
  | init directory => !CommandLine.isFile files directory
  | events directory .. => CommandLine.isDirectory files directory
  | _ => true

def paths : Command → List Path
  | eval _ file _ => (file.map Path.ofText).toList
  | sheet file _ => [Path.ofText file]
  | init directory => [(Path.ofText directory).child Settings.fileName]
  | events directory .. => [(Path.ofText directory).child EventLog.fileName]
  | _ => []

end Command
end Spreadsheet.CommandLine
