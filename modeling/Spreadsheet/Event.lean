import Spreadsheet.Integer

/-!
# Events

A record of something that happened while formulas or sheets were evaluated. An event is written to
a log as a dictionary. Before that the texts of its context are cut to a bounded length, as formulas
and values can be arbitrarily long.
-/

set_option autoImplicit false

namespace Spreadsheet

inductive EventLevel where
  | info
  | warning
  | error
  deriving DecidableEq, Repr

inductive EventType where
  /-- One formula was evaluated. -/
  | formulaEvaluated
  | formulaFailed
  /-- A whole sheet was evaluated. -/
  | sheetEvaluated
  | cellError
  | circularReference
  deriving DecidableEq, Repr

namespace EventLevel

def all : List EventLevel := [info, warning, error]

def name : EventLevel → String
  | info => "info"
  | warning => "warning"
  | error => "error"

def ofName? (s : String) : Option EventLevel := all.find? (·.name == s)

end EventLevel

namespace EventType

def all : List EventType :=
  [formulaEvaluated, formulaFailed, sheetEvaluated, cellError, circularReference]

def name : EventType → String
  | formulaEvaluated => "formula_evaluated"
  | formulaFailed => "formula_failed"
  | sheetEvaluated => "sheet_evaluated"
  | cellError => "cell_error"
  | circularReference => "circular_reference"

def ofName? (s : String) : Option EventType := all.find? (·.name == s)

end EventType

/-- What kind of failure an event reports. -/
inductive ErrorCode where
  | formulaParse
  | formulaEvaluation
  | circularReference
  | sheetHasErrors

def ErrorCode.name : ErrorCode → String
  | formulaParse => "formula_parse_error"
  | formulaEvaluation => "formula_eval_error"
  | circularReference => "circular_reference"
  | sheetHasErrors => "sheet_has_errors"

structure Event where
  schemaVersion : Int := 1
  /-- When it happened. -/
  time : String
  level : EventLevel
  type : EventType
  /-- What it happened to. -/
  context : List (String × Value) := []
  message : String := ""
  errorCode : Option String := none

/-- Why an event cannot be made. -/
inductive EventFault where
  | unknownLevel (name : String)
  | unknownType (name : String)
  /-- The fields at these paths are missing or hold a value of the wrong kind. -/
  | invalidFields (paths : List String)

def EventFault.message : EventFault → String
  | unknownLevel name => Text.quoted name ++ " is not a valid EventLevel"
  | unknownType name => Text.quoted name ++ " is not a valid EventType"
  | invalidFields _ => ""

/-! ## Cutting long texts -/

/-- The most characters that a text keeps. -/
def keptLength : Nat := 256

/-- The mark after a text that was cut. -/
def cutMark : List Char := "...[truncated]".toList

/-- Cuts a text that is too long and marks the cut. -/
def cutText (s : String) : String :=
  let cs := s.toList
  if keptLength < cs.length then String.ofList (cs.take keptLength ++ cutMark) else s

mutual

/-- Cuts the texts inside a value; keys are left alone. -/
def Value.cut : Value → Value
  | .text s => .text (cutText s)
  | .list vs => .list (Value.cutAll vs)
  | .dict es => .dict (Value.cutEntries es)
  | v => v

def Value.cutAll : List Value → List Value
  | [] => []
  | v :: vs => v.cut :: Value.cutAll vs

def Value.cutEntries : List (Key × Value) → List (Key × Value)
  | [] => []
  | (k, v) :: es => (k, v.cut) :: Value.cutEntries es

end

namespace Event

/-- Cuts the texts of the context. -/
def cut (e : Event) : Event := { e with context := e.context.map fun (k, v) => (k, v.cut) }

/-! ## Events as dictionaries -/

def textValue? (s : Option String) : Value :=
  match s with
  | some s => .text s
  | none => .null

/-- A dictionary with text keys. -/
def dictionary (fields : List (String × Value)) : Value :=
  .dict (fields.map fun (k, v) => (.text k, v))

def toValue (e : Event) : Value :=
  dictionary [
    ("schema_version", .int e.schemaVersion),
    ("ts", .text e.time),
    ("level", .text e.level.name),
    ("event_type", .text e.type.name),
    ("context", dictionary e.context),
    ("message", .text e.message),
    ("error_code", textValue? e.errorCode)]

/-- The entries of a dictionary all of whose keys are texts. -/
def textEntries? (entries : List (Key × Value)) : Option (List (String × Value)) :=
  entries.mapM fun
    | (.text k, v) => some (k, v)
    | _ => none

/-- A field that holds a text, or the given one when it is missing. -/
def textField? (missing : Option String) : Option Value → Option String
  | none => missing
  | some (.text s) => some s
  | some _ => none

/-- A field that holds a text or nothing. -/
def codeField? : Option Value → Option (Option String)
  | none => some none
  | some .null => some none
  | some (.text s) => some (some s)
  | some _ => none

def contextField? : Option Value → Option (List (String × Value))
  | none => some []
  | some (.dict es) => textEntries? es
  | some _ => none

/-- The path to a key of the context. Truth values are spelled as one and zero there, and a number
that is too long is not spelled. -/
def keyPath (k : Key) : String :=
  let name :=
    match k with
    | .text s => s
    | .bool b => if b then "1" else "0"
    | .int n => if Decimal.isWritable n then Decimal.intText n else "<unprintable int object>"
    | k => k.quoted
  .join ["context.", name, ".[key]"]

/-- The paths, in order, to what keeps a field from holding a context: to each key that is no text,
or to the field when it holds no dictionary. -/
def contextPaths : Option Value → List String
  | none => []
  | some (.dict es) =>
    let others := (es.map (·.1)).filter fun
      | .text _ => false
      | _ => true
    (others.map keyPath).mergeSort fun a b => !decide (b < a)
  | some _ => ["context"]

/-- Drops blanks at the ends of a text and then a fraction that holds nothing but zeros. -/
def wholePart (s : String) : List Char :=
  let cs := ((s.toList.dropWhile Decimal.isMargin).reverse.dropWhile Decimal.isMargin).reverse
  let whole := cs.takeWhile (· != '.')
  if (cs.drop (whole.length + 1)).all (· == '0') then whole else cs

/-- A text that spells a whole number in plain digits, which single underscores may group. -/
def versionText? (s : String) : Option Int :=
  let cs := wholePart s
  if cs.all fun c => Decimal.isDigit c || ['_', '+', '-'].contains c then
    (Decimal.integer (String.ofList cs)).toOption
  else none

/-- A field that holds a whole number, or a value that stands for one. A double must lie between the
bounds of a signed word of 64 bits. -/
def versionField? : Option Value → Option Int
  | none => some 1
  | some (.int n) => some n
  | some (.bool b) => some (if b then 1 else 0)
  | some (.float x) =>
    if Binary64.isWhole x then (Binary64.truncate? x).filter fun n => decide (n.natAbs < Nat.pow 2 63)
    else none
  | some (.text s) => versionText? s
  | some _ => none

/-- The event that a dictionary of its fields describes; unknown fields are ignored. Without a time
of its own it happens `now`. -/
def ofFields (now : String) (fields : List (Key × Value)) : Except EventFault Event :=
  let context := contextField? (lookupText "context" fields)
  let code := codeField? (lookupText "error_code" fields)
  let type := (textField? none (lookupText "event_type" fields)).bind EventType.ofName?
  let level := (textField? none (lookupText "level" fields)).bind EventLevel.ofName?
  let message := textField? (some "") (lookupText "message" fields)
  let version := versionField? (lookupText "schema_version" fields)
  let time := textField? (some now) (lookupText "ts" fields)
  match context, code, type, level, message, version, time with
  | some context, some code, some type, some level, some message, some version, some time =>
    .ok ⟨version, time, level, type, context, message, code⟩
  | _, _, _, _, _, _, _ =>
    let failing := [("error_code", code.isNone), ("event_type", type.isNone),
      ("level", level.isNone), ("message", message.isNone), ("schema_version", version.isNone),
      ("ts", time.isNone)]
    .error (.invalidFields (contextPaths (lookupText "context" fields) ++
      (failing.filter (·.2)).map (·.1)))

/-- Sets a field: a field that is there already keeps its place. -/
def setField (name : String) (v : Value) : List (String × Value) → List (String × Value)
  | [] => [(name, v)]
  | (k, w) :: fields => if k == name then (k, v) :: fields else (k, w) :: setField name v fields

/-- The context of an event about a formula: the formula, its result if it has one, and further
fields, which prevail. -/
def formulaContext (formula : String) (result : Value) (extra : List (String × Value)) :
    List (String × Value) :=
  let result :=
    match result with
    | .null => []
    | v => [("result", v)]
  extra.foldl (fun fields (k, v) => setField k v fields) (("formula", .text formula) :: result)

end Event
end Spreadsheet
