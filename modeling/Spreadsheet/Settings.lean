import Spreadsheet.Files
import Spreadsheet.Integer
import Spreadsheet.KeyOrder
import Spreadsheet.Text.Utf8
import Spreadsheet.Yaml.Fault

/-!
# Settings

What can be set in the settings file of a directory. The values are kept as they are given and are
interpreted where they are used; only the directory of the event log is made a path seen from where
the settings are.
-/

set_option autoImplicit false

namespace Spreadsheet

structure Settings where
  /-- The most cells that a range may span; no limit if there is nothing. -/
  rangeLimit : Value := .int 100000
  /-- Whether settled cells are kept. -/
  memoize : Value := .bool true
  /-- The directory of the event log; no log if there is nothing. -/
  logDirectory : Value := .null
  /-- Whether every event is forced to the disk. -/
  logSync : Value := .bool false
  /-- How many bytes at the end of the log are read back. -/
  logTailBytes : Value := .int 2097152

/-- Why settings cannot be used. -/
inductive SettingsFault where
  | document (fault : Yaml.DocumentFault)
  | file (fault : FileFault)
  | notMapping (path : Path)
  | unknownKeys (path : Path) (keys : List Key)
  /-- The unknown keys cannot be put in order for the message. -/
  | unorderedKeys (a b : Key)
  /-- An unknown key is a number that is too long for the message. -/
  | longKey
  /-- The directory of the event log is given by something else than a text. -/
  | notPath (typeName : String)

namespace SettingsFault

def message : SettingsFault → String
  | document fault => fault.message
  | file fault => fault.message
  | notMapping path => path.text ++ ": expected a mapping at top level"
  | unknownKeys path keys =>
    path.text ++ ": unknown config keys [" ++ String.intercalate ", " (keys.map (·.quoted)) ++ "]"
  | unorderedKeys a b => unorderedMessage a b
  | longKey => NumericFault.tooLongToWrite.message
  | notPath typeName => "expected str, bytes or os.PathLike object, not " ++ typeName

/-- Whether the fault lies in what the settings say, so that its message tells the user what to do.
The others end a run as they are. -/
def isExplained : SettingsFault → Bool
  | document fault => fault.isExplained
  | notMapping _ => true
  | unknownKeys .. => true
  | longKey => true
  | _ => false

end SettingsFault

namespace Settings

def fileName : String := "quicksheets.yaml"

/-- What a new settings file holds. -/
def initialText : String :=
  "# quicksheets engine configuration\nmax_range_cells: 100000\nmemoize: true\n# log_dir: logs\n"

/-- The keys and what is set under them, in the order of the keys. -/
def fields (s : Settings) : List (String × Value) := [
  ("log_dir", s.logDirectory),
  ("logging_fsync", s.logSync),
  ("logging_tail_bytes", s.logTailBytes),
  ("max_range_cells", s.rangeLimit),
  ("memoize", s.memoize)]

def isKnown (k : Key) : Bool :=
  (({} : Settings).fields.map (·.1)).any fun name => k.same (.text name)

/-- The settings that some entries make, by default the initial ones. -/
def ofEntries (entries : List (Key × Value)) : Settings where
  rangeLimit := (lookupText "max_range_cells" entries).getD ({} : Settings).rangeLimit
  memoize := (lookupText "memoize" entries).getD ({} : Settings).memoize
  logDirectory := (lookupText "log_dir" entries).getD ({} : Settings).logDirectory
  logSync := (lookupText "logging_fsync" entries).getD ({} : Settings).logSync
  logTailBytes := (lookupText "logging_tail_bytes" entries).getD ({} : Settings).logTailBytes

/-- The settings as a dictionary. -/
def toValue (s : Settings) : Value := .dict (s.fields.map fun (k, v) => (.text k, v))

/-- The settings that a document makes, if it is a mapping with known keys. Nothing, and whatever
counts as false, makes the initial settings. -/
def ofDocument (path : Path) (document : Value) : Except SettingsFault Settings :=
  if !document.isTruthy then .ok {}
  else
    match document with
    | .dict entries =>
      match (entries.map (·.1)).filter (!isKnown ·) with
      | [] => .ok (ofEntries entries)
      | unknown =>
        match Key.sort unknown with
        | .ok keys => .error (if keys.all (·.isWritable) then .unknownKeys path keys else .longKey)
        | .error (a, b) => .error (.unorderedKeys a b)
    | _ => .error (.notMapping path)

/-- Sees the directory of the event log from another directory. -/
def placed (directory : Path) (s : Settings) : Except SettingsFault Settings :=
  match s.logDirectory with
  | .null => .ok s
  | .text log => .ok { s with logDirectory := .text (directory.join (Path.ofText log)).text }
  | v => .error (.notPath v.typeName)

/-- The directory of the event log. -/
def logPath? (s : Settings) : Option Path :=
  match s.logDirectory with
  | .text log => some (Path.ofText log)
  | _ => none

def workingPath (files : Files) : Path := ⟨"/", files.workingDirectory⟩

/-- The document that a settings file holds; nothing if there is no such file. -/
def readDocument (reader : Yaml.Reader) (files : Files) (path : Path) :
    Except SettingsFault Value := do
  if ← (files.exists? path).mapError .file then
    let bytes ← (files.read path).mapError .file
    (reader (Text.decodeUtf8 bytes)).mapError .document
  else return .null

/-- The settings of a directory, by default the working directory. -/
def load (reader : Yaml.Reader) (files : Files) (directory : Option Path) :
    Except SettingsFault Settings := do
  let directory := directory.getD (workingPath files)
  let path := directory.child fileName
  let settings ← ofDocument path (← readDocument reader files path)
  settings.placed directory

/-- Why no initial settings file was written. -/
inductive InitialFault where
  /-- There is one already. -/
  | present (path : Path)
  | file (fault : FileFault)

def InitialFault.message : InitialFault → String
  | present path => path.text ++ " already exists"
  | file fault => fault.message

/-- Writes the initial settings file of a directory, unless there is one. -/
def writeInitial (files : Files) (directory : Path) : Except InitialFault Files :=
  let path := directory.child fileName
  match files.exists? path with
  | .ok true => .error (.present path)
  | .ok false => (files.write path (Text.encodeUtf8 initialText)).mapError .file
  | .error fault => .error (.file fault)

/-! ## What settings mean for an evaluation -/

/-- The limit that is set for ranges. -/
def limit (s : Settings) : Except IntegerFault (Option Int) :=
  match s.rangeLimit with
  | .null => .ok none
  | v => return some (← v.integer)

/-- Whether settled cells are to be kept. -/
def memoizes (s : Settings) : Bool := s.memoize.isTruthy

end Settings
end Spreadsheet
