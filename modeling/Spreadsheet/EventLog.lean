import Spreadsheet.Event
import Spreadsheet.Files
import Spreadsheet.Json.Reader
import Spreadsheet.Json.Writer
import Spreadsheet.Text.Blank
import Spreadsheet.Text.Utf8

/-!
# The event log

A log is a file of lines, one event a line, that only grows at its end. Reading it back starts with
the newest event and looks at no more than a bounded number of bytes at the end of the file. Lines
that are no JSON are passed over.
-/

set_option autoImplicit false

namespace Spreadsheet

structure EventLog where
  directory : Path
  /-- How many bytes at the end of the file are read back. -/
  tailBytes : Nat := 2097152

namespace EventLog

/-- The name of the file in the directory of a log. -/
def fileName : String := "events.ndjson"

def path (log : EventLog) : Path := log.directory.child fileName

/-- Opens a log, making its directory if it is not there. -/
def opened (files : Files) (log : EventLog) : Files × Option FileFault :=
  files.makeDirectory log.directory

/-! ## Writing -/

/-- Why an event was not written. -/
inductive WriteFault where
  | json (fault : Json.WriteFault)
  | file (fault : FileFault)

/-- The line of an event, with the break that ends it. -/
def line (e : Event) : Except Json.WriteFault (List Char) :=
  return (← Json.write .line 0 e.toValue) ++ ['\n']

/-- Adds the line of an event to the log. -/
def write (log : EventLog) (files : Files) (e : Event) : Except WriteFault Files := do
  let cs ← (line e).mapError .json
  (files.append log.path (Text.encodeUtf8 (String.ofList cs))).mapError .file

/-- Adds an event, its texts cut, to the log if there is one. When that fails, everything stays as
it was. -/
def emit (log : Option EventLog) (files : Files) (e : Event) : Files :=
  match log with
  | none => files
  | some log =>
    match log.write files e.cut with
    | .ok files => files
    | .error _ => files

/-- Adds events one after the other. -/
def emitAll (log : Option EventLog) (files : Files) (events : List Event) : Files :=
  events.foldl (emit log) files

/-! ## Reading -/

/-- Why the events of a log cannot be listed. -/
inductive ReadFault where
  | file (fault : FileFault)
  | numeric (fault : NumericFault)
  /-- An event that is no dictionary was to be filtered or shown. -/
  | noFields (typeName : String)

def ReadFault.message : ReadFault → String
  | file fault => fault.message
  | numeric fault => fault.message
  | noFields typeName => "'" ++ typeName ++ "' object has no attribute 'get'"

/-- The last bytes of a file. If that is not all of it, they start after the first line break among
them, as the line before it may be a part only. -/
def tail (count : Nat) (bytes : List UInt8) : List UInt8 :=
  if bytes.length ≤ count then bytes
  else
    let last := bytes.drop (bytes.length - count)
    if last.contains 0x0a then (last.dropWhile (· != 0x0a)).drop 1 else last

def entryLines (bytes : List UInt8) : List (List Char) :=
  ((Text.splitLines (Text.decodeUtf8 bytes)).map Text.strip).filter (!·.isEmpty)

/-- The values on some lines; lines that are no JSON have none. -/
def valuesOf : List (List Char) → Except ReadFault (List Value)
  | [] => .ok []
  | l :: ls =>
    match Json.read l with
    | .ok v => return v :: (← valuesOf ls)
    | .error .malformed => valuesOf ls
    | .error (.numeric fault) => .error (.numeric fault)

/-- A field of an event that was read back. -/
def field (name : String) : Value → Except ReadFault (Option Value)
  | .dict es => .ok (lookupText name es)
  | v => .error (.noFields v.typeName)

/-- The events one of whose fields is a given text; an empty text asks for nothing. -/
def having (name : String) (text : Option String) (events : List Value) :
    Except ReadFault (List Value) :=
  match text with
  | none => .ok events
  | some "" => .ok events
  | some text =>
    events.filterM fun e => do
      match ← field name e with
      | some (.text s) => return s == text
      | _ => return false

/-- The most events that are listed at once. -/
def greatestLimit : Int := 2000

/-- The first so many items, or with a negative number all but so many at the end. -/
def takeSigned {α : Type} (n : Int) (as : List α) : List α :=
  if 0 ≤ n then as.take n.toNat else as.take (as.length - n.natAbs)

/-- What is asked of a log. -/
structure Query where
  level : Option String := none
  type : Option String := none
  limit : Int := 200

/-- The events in some bytes that a query asks for, the newest first. -/
def select (query : Query) (bytes : List UInt8) : Except ReadFault (List Value) := do
  let events ← valuesOf (entryLines bytes)
  let events ← having "level" query.level events
  let events ← having "event_type" query.type events
  return takeSigned (min query.limit greatestLimit) events.reverse

def bytes (log : EventLog) (files : Files) : Except FileFault (List UInt8) :=
  match files.find log.path with
  | .ok (.file bytes) => .ok bytes
  | .ok .directory => .error .notReadable
  | .error fault => if fault.isAbsence then .ok [] else .error fault

/-- The events of a log that a query asks for, the newest first. -/
def read (log : EventLog) (files : Files) (query : Query) : Except ReadFault (List Value) := do
  select query (tail log.tailBytes (← (log.bytes files).mapError .file))

end EventLog
end Spreadsheet
