import Spreadsheet.CommandLine.Run
import Spreadsheet.Yaml.Document
import Std.Time.DateTime

/-!
# The program

Reads the files that a run looks at, runs the command line on them, and writes back what the run has
changed.
-/

set_option autoImplicit false

namespace Spreadsheet.Program

/-- The text of a number, filled up with zeros. -/
def padded (width : Nat) (n : Int) : String := String.ofList (Decimal.padded width n.natAbs)

/-- The present time in a form that sorts by its characters. -/
def timeText : IO String := do
  let now := Std.Time.PlainDateTime.ofWallTime ((← Std.Time.Timestamp.now).toWallTime .zero)
  let date := String.intercalate "-"
    [padded 4 now.year, padded 2 now.month.val, padded 2 now.day.val]
  let time := String.intercalate ":"
    [padded 2 now.hour.val, padded 2 now.minute.val, padded 2 now.second.val]
  return date ++ "T" ++ time ++ "." ++ padded 6 (now.nanosecond.val / 1000) ++ "Z"

def placeText (l : Location) : String := "/" ++ String.intercalate "/" l

/-- Adds what the disk has along some names to the files. -/
def loadAlong (files : Files) (l : Location) : List String → IO Files
  | [] => return files
  | name :: names => do
    let m := if name == ".." then l.dropLast else l ++ [name]
    let place := (← IO.currentDir) / placeText m
    if !(← place.pathExists) then return files
    else if ← place.isDir then
      loadAlong { files with directories := m :: files.directories } m names
    else if (← place.metadata).type == .file && names.isEmpty then
      let bytes ← IO.FS.readBinFile place
      return { files with contents := Files.setBytes m bytes.toList files.contents }
    else return { files with contents := Files.setBytes m [] files.contents }

def load (files : Files) (path : Path) : IO Files :=
  loadAlong files (files.start path) path.names

/-- Writes a file, at its end only if that is where it has grown. -/
def store (before : Files) (l : Location) (bytes : List UInt8) : IO Unit := do
  let place := (← IO.currentDir) / placeText l
  let old := (before.bytesAt? l).getD []
  if old.isPrefixOf bytes then
    let file ← IO.FS.Handle.mk place .append
    file.lock
    file.write (bytes.drop old.length).toByteArray
    file.unlock
  else IO.FS.writeBinFile place bytes.toByteArray

/-- Writes what has changed to the disk. -/
def storeChanges (before after : Files) : IO Unit := do
  for l in after.directories do
    if !before.isDirectory l then IO.FS.createDirAll ((← IO.currentDir) / placeText l)
  for (l, bytes) in after.contents do
    if before.bytesAt? l != some bytes then store before l bytes

/-- Runs the command line on the disk and gives the exit code. -/
def run (arguments : List String) : IO UInt32 := do
  let working := Path.ofText (toString (← IO.currentDir))
  let files ← load { workingDirectory := working.names } working
  let files ← (CommandLine.consulted files arguments).foldlM load files
  let files ← ((CommandLine.logOf Yaml.read files arguments).map (·.path)).toList.foldlM load files
  let started ← IO.monoMsNow
  let outcome ← IO.lazyPure fun _ => CommandLine.run Yaml.read files arguments
  let elapsed := (← IO.monoMsNow) - started
  let changed := outcome.record ⟨← timeText, elapsed.toFloat⟩
  storeChanges files changed
  let out ← IO.getStdout
  let err ← IO.getStderr
  match outcome.ending with
  | .misused => err.putStrLn "Usage: quicksheets [--config-dir DIRECTORY] COMMAND [ARGUMENTS]"
  | .broken fault => err.putStrLn fault.message
  | .explained _ => err.putStr outcome.ending.output
  | _ => out.putStr outcome.ending.output
  return outcome.ending.exitCode.toUInt32

end Spreadsheet.Program

def main (arguments : List String) : IO UInt32 := Spreadsheet.Program.run arguments
