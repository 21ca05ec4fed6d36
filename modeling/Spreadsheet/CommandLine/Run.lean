import Spreadsheet.CommandLine.Command
import Spreadsheet.CommandLine.Listing
import Spreadsheet.CommandLine.PlainText
import Spreadsheet.Function.Builtin
import Spreadsheet.Settings
import Spreadsheet.Sheet

/-!
# Running a command

A run reads the settings, opens the event log that they name, reads the command off its arguments
and carries it out. What it prints, what becomes of the files and which events it reports are its
outcome; recording the outcome writes the events to the log.
-/

set_option autoImplicit false

namespace Spreadsheet.CommandLine

/-- What can end a run without an explanation for the user. -/
inductive Fault where
  | evaluation (failure : Failure)
  | settings (fault : SettingsFault)
  | sheet (fault : SheetFault)
  | limit (fault : IntegerFault)
  | log (fault : EventLog.ReadFault)
  | file (fault : FileFault)

def Fault.message : Fault → String
  | evaluation failure => failure.message
  | settings fault => fault.message
  | sheet fault => fault.message
  | limit fault => fault.message
  | log fault => fault.message
  | file fault => fault.message

/-- How a run ends. -/
inductive Ending where
  | finished (output : String)
  /-- What was asked for failed, and the output tells about it. -/
  | failed (output : String)
  /-- What was asked for cannot be done, and the message tells the user why. -/
  | explained (message : String)
  /-- The command is not used as it should be. -/
  | misused
  | broken (fault : Fault)

namespace Ending

def exitCode : Ending → Nat
  | finished _ => 0
  | failed _ => 1
  | explained _ => 1
  | misused => 2
  | broken _ => 1

/-- What a run prints. -/
def output : Ending → String
  | finished output => plainText output
  | failed output => plainText output
  | explained message => plainText ("Error: " ++ message ++ "\n")
  | misused => ""
  | broken _ => ""

/-- The ending with an output that may be impossible to write. -/
def ofOutput (output : Except NumericFault String) (ending : String → Ending) : Ending :=
  match output with
  | .ok s => ending s
  | .error fault => broken (.evaluation (.numeric fault))

def ofRefusal : Refusal → Ending
  | .misused => misused
  | .file fault => broken (.file fault)

end Ending

/-- What a run leads to. -/
structure Outcome where
  ending : Ending
  files : Files
  log : Option EventLog := none
  /-- The events to write to the log, once the clock is read. -/
  events : Clock → List Event := fun _ => []

/-- Writes the events of a run to its log. -/
def Outcome.record (clock : Clock) (outcome : Outcome) : Files :=
  EventLog.emitAll outcome.log outcome.files (outcome.events clock)

/-! ## The commands -/

/-- What a command leads to when it leaves the files alone. -/
abbrev Result := Ending × (Clock → List Event)

def Result.silent (ending : Ending) : Result := (ending, fun _ => [])

/-- The grid of a sheet file, empty without one, or the ending when there is none. -/
def gridFor (reader : Yaml.Reader) (files : Files) (sheet : Option String) : Except Ending Grid :=
  match sheet with
  | none => .ok .empty
  | some file =>
    match Sheet.load reader files (Path.ofText file) with
    | .ok grid => .ok grid
    | .error fault =>
      .error (if fault.isExplained then .explained fault.message else .broken (.sheet fault))

/-- What formulas are evaluated with under some settings. -/
def contextFor (settings : Settings) (grid : Grid) : Except Ending EvaluationContext :=
  match settings.limit with
  | .ok limit =>
    .ok {
      grid := grid
      functions := Builtin.registry
      rangeLimit := limit
      memoize := settings.memoizes }
  | .error fault => .error (.broken (.limit fault))

def codeOf : FormulaFault → ErrorCode
  | .circular _ => .circularReference
  | .parsing _ => .formulaParse
  | _ => .formulaEvaluation

/-- The sheet that a formula was evaluated on, as a field of an event. -/
def sheetField (sheet : Option String) : List (String × Value) :=
  (sheet.map fun file => ("sheet", Value.text file)).toList

def evaluatedEvent (formula : String) (sheet : Option String) (v : Value) (clock : Clock) :
    Event where
  time := clock.time
  level := .info
  type := .formulaEvaluated
  context := Event.formulaContext formula v (sheetField sheet)
  message := "Formula evaluated"

def failedEvent (formula : String) (sheet : Option String) (fault : FormulaFault) (clock : Clock) :
    Event where
  time := clock.time
  level := .error
  type := .formulaFailed
  context := Event.formulaContext formula .null (sheetField sheet)
  message := fault.message
  errorCode := some (codeOf fault).name

def displayLine (v : Value) : Except NumericFault String :=
  return (← ({ value := v } : Cell).display) ++ "\n"

def evaluatedText (formula : String) (asJson : Bool) (v : Value) : Except NumericFault String :=
  if asJson then jsonText (Event.dictionary [("formula", .text formula), ("result", v)])
  else displayLine v

def failedEnding (formula : String) (asJson : Bool) (fault : FormulaFault) : Ending :=
  if asJson then
    .ofOutput
      (jsonText (Event.dictionary [
        ("formula", .text formula),
        ("error", .text fault.message),
        ("error_type", .text fault.kindName)]))
      .failed
  else .explained fault.message

def evalResult (ctx : EvaluationContext) (formula : String) (sheet : Option String)
    (asJson : Bool) : Result :=
  match (Resolver.evaluateText ctx formula).outcome {} with
  | .ok v =>
    (.ofOutput (evaluatedText formula asJson v) .finished,
      fun clock => [evaluatedEvent formula sheet v clock])
  | .error (.formula fault) =>
    (failedEnding formula asJson fault, fun clock => [failedEvent formula sheet fault clock])
  | .error failure => .silent (.broken (.evaluation failure))

def sheetResult (ctx : EvaluationContext) (file : String) (asJson : Bool) : Result :=
  match SheetReport.evaluate ctx {} with
  | .error failure _ => .silent (.broken (.evaluation failure))
  | .ok report _ =>
    let ending :=
      match report.fault with
      | some fault => .broken (.evaluation (.numeric fault))
      | none =>
        if asJson then .ofOutput (jsonText report.toValue) .finished
        else .finished (reportText report)
    (ending, fun clock => report.events clock (some file))

def tokensEnding (formula : String) : Ending :=
  match tokenize (Formula.body formula) with
  | .ok tokens => .finished (listing (tokens.map tokenLine))
  | .error fault => .explained fault.message

def treeEnding (formula : String) (asJson : Bool) : Ending :=
  match Formula.parse formula with
  | .error fault => .explained fault.message
  | .ok f =>
    if asJson then .ofOutput (jsonText f.toValue) .finished
    else .finished (listing (f.render :: treeLines 0 f))

/-- The coordinate that an address or a range starts with. -/
def startOf (mention : String) : Except Failure Coordinate :=
  Coordinate.ofAddress (String.ofList (mention.toList.takeWhile (· != ':')))

/-- By coordinate, and at one coordinate by characters. -/
def mentionLe (a b : Coordinate × String) : Bool :=
  if a.1 = b.1 then !decide (b.2 < a.2) else a.1.le b.1

/-- Mentioned addresses and ranges in the order of their coordinates. -/
def inOrder (mentions : List String) : Except Failure (List String) := do
  let placed ← mentions.mapM fun mention => do return (← startOf mention, mention)
  return (placed.mergeSort mentionLe).map (·.2)

def refsEnding (formula : String) (expand : Bool) : Ending :=
  match Formula.parse formula with
  | .error fault => .explained fault.message
  | .ok f =>
    match f.mentionedOnce expand with
    | .error (.formula fault) => .explained fault.message
    | .error failure => .broken (.evaluation failure)
    | .ok mentions =>
      match inOrder mentions with
      | .ok mentions => .finished (listing mentions)
      | .error failure => .broken (.evaluation failure)

def eventsEnding (files : Files) (directory : String) (query : EventLog.Query) : Ending :=
  let log : EventLog := { directory := Path.ofText directory }
  match (log.read files query).bind eventsText with
  | .ok output => .finished output
  | .error fault => .broken (.log fault)

/-- Writes the initial settings file of a directory, which is made if it is not there. -/
def writeInitial (files : Files) (directory : Path) : Ending × Files :=
  match files.makeDirectory directory with
  | (files, some fault) => (.broken (.file fault), files)
  | (files, none) =>
    match Settings.writeInitial files directory with
    | .ok files =>
      (.finished ("Created " ++ (directory.child Settings.fileName).text ++ "\n"), files)
    | .error (.present path) => (.explained (Settings.InitialFault.present path).message, files)
    | .error (.file fault) => (.broken (.file fault), files)

/-- What a command leads to that evaluates something on a grid. -/
def onGrid (reader : Yaml.Reader) (files : Files) (settings : Settings) (sheet : Option String)
    (result : EvaluationContext → Result) : Result :=
  match gridFor reader files sheet with
  | .error ending => .silent ending
  | .ok grid =>
    match contextFor settings grid with
    | .error ending => .silent ending
    | .ok ctx => result ctx

/-- Carries out a command. -/
def carryOut (reader : Yaml.Reader) (files : Files) (settings : Settings) (log : Option EventLog)
    (c : Command) : Outcome :=
  let unchanged := fun (result : Result) => Outcome.mk result.1 files log result.2
  match c with
  | .eval formula sheet asJson =>
    unchanged (onGrid reader files settings sheet fun ctx => evalResult ctx formula sheet asJson)
  | .sheet file asJson =>
    unchanged (onGrid reader files settings (some file) fun ctx => sheetResult ctx file asJson)
  | .tokens formula => unchanged (.silent (tokensEnding formula))
  | .tree formula asJson => unchanged (.silent (treeEnding formula asJson))
  | .refs formula expand => unchanged (.silent (refsEnding formula expand))
  | .init directory =>
    let (ending, files) := writeInitial files (Path.ofText directory)
    { ending := ending, files := files, log := log }
  | .events directory level type limit =>
    unchanged (.silent (eventsEnding files directory ⟨level, type, limit⟩))

/-! ## A whole run -/

def versionText : String := "quicksheets, version 0.1.0\n"

/-- The options before the name of a command. -/
def generalOptions : List OptionKind := [⟨"--config-dir", true⟩, ⟨"--version", false⟩]

/-- Carries out the named command under some settings. -/
def runWith (reader : Yaml.Reader) (files : Files) (settings : Settings) (name : String)
    (arguments : List String) : Outcome :=
  let log := settings.logPath?.map fun directory => ({ directory := directory } : EventLog)
  let ended := fun (ending : Ending) (files : Files) => Outcome.mk ending files none fun _ => []
  match log.elim (files, none) (EventLog.opened files) with
  | (files, some fault) => ended (.broken (.file fault)) files
  | (files, none) =>
    match Command.ofArguments name arguments with
    | .error refusal => ended (.ofRefusal refusal) files
    | .ok c =>
      if c.isUsable files then carryOut reader files settings log c else ended .misused files

/-- The paths that a run looks at, apart from its log. -/
def consulted (files : Files) (arguments : List String) : List Path :=
  match Arguments.sort generalOptions false arguments with
  | none => []
  | some a =>
    let directory := ((a.value? "--config-dir").map Path.ofText).getD (Settings.workingPath files)
    let command :=
      match a.positional with
      | name :: rest => (Command.ofArguments name rest).toOption
      | [] => none
    directory.child Settings.fileName :: (command.map Command.paths).getD []

/-- The log that the settings of a run name. -/
def logOf (reader : Yaml.Reader) (files : Files) (arguments : List String) : Option EventLog := do
  let a ← Arguments.sort generalOptions false arguments
  let settings ← (Settings.load reader files ((a.value? "--config-dir").map Path.ofText)).toOption
  let directory ← settings.logPath?
  return { directory := directory }

def asksVersion (arguments : List String) : Bool :=
  (Arguments.sort generalOptions false arguments).any (·.has "--version")

/-- Runs the command that some arguments name, under the settings of a directory. -/
def runNamed (reader : Yaml.Reader) (files : Files) (directory : Option Path)
    (arguments : List String) : Outcome :=
  let ended := fun (ending : Ending) => Outcome.mk ending files none fun _ => []
  match arguments with
  | [] => ended .misused
  | name :: rest =>
    if !Command.names.contains name then
      ended (if asksVersion arguments then .finished versionText else .misused)
    else
      match Settings.load reader files directory with
      | .error fault =>
        ended (if fault.isExplained then .explained fault.message else .broken (.settings fault))
      | .ok settings => runWith reader files settings name rest

/-- Runs the command line. -/
def run (reader : Yaml.Reader) (files : Files) (arguments : List String) : Outcome :=
  let ended := fun (ending : Ending) => Outcome.mk ending files none fun _ => []
  match Arguments.sort generalOptions false arguments with
  | none => ended .misused
  | some a =>
    let directory := a.value? "--config-dir"
    if a.has "--version" then ended (.finished versionText)
    else
      match Command.checkPath directory with
      | .error refusal => ended (.ofRefusal refusal)
      | .ok _ =>
        if directory.all (isDirectory files) then
          runNamed reader files (directory.map Path.ofText) a.positional
        else ended .misused

end Spreadsheet.CommandLine
