import Spreadsheet.Files.Path
import Spreadsheet.Text.Quoted

/-!
# Files

The directories and files that a program works on. A directory is there when it was made, when it
holds something, or when it lies above the working directory, from which relative paths start.
-/

set_option autoImplicit false

namespace Spreadsheet

/-- A place: the names on the way to it from the root. -/
abbrev Location := List String

structure Files where
  workingDirectory : Location := []
  /-- The directories that were made. -/
  directories : List Location := []
  contents : List (Location × List UInt8) := []

/-- Why a path cannot be used as it is meant. -/
inductive FileFault where
  | notFound (path : Path)
  | exists (path : Path)
  | notDirectory (path : Path)
  | isDirectory (path : Path)
  | nameTooLong (path : Path)
  /-- What was opened to be read turns out to be a directory. -/
  | notReadable
  /-- A path holds the character that ends the names of files. -/
  | nullCharacter

namespace FileFault

def message : FileFault → String
  | notFound path => "[Errno 2] No such file or directory: " ++ Text.quoted path.text
  | .exists path => "[Errno 17] File exists: " ++ Text.quoted path.text
  | notDirectory path => "[Errno 20] Not a directory: " ++ Text.quoted path.text
  | isDirectory path => "[Errno 21] Is a directory: " ++ Text.quoted path.text
  | nameTooLong path => "[Errno 36] File name too long: " ++ Text.quoted path.text
  | notReadable => "[Errno 21] Is a directory"
  | nullCharacter => "embedded null byte"

/-- Whether the fault means that nothing is there. -/
def isAbsence : FileFault → Bool
  | notFound _ => true
  | notDirectory _ => true
  | nullCharacter => true
  | _ => false

end FileFault

/-- What is found at a path. -/
inductive FileEntry where
  | file (bytes : List UInt8)
  | directory

namespace Files

/-- The most bytes that a name has. -/
def nameLimit : Nat := 255

/-- The most bytes that the text of a path has. -/
def pathLimit : Nat := 4095

def isDirectory (files : Files) (l : Location) : Bool :=
  l.isPrefixOf files.workingDirectory || files.directories.any (l.isPrefixOf ·) ||
    files.contents.any fun (m, _) => l.isPrefixOf m && l != m

/-- The bytes of the file at a place. -/
def bytesAt? (files : Files) (l : Location) : Option (List UInt8) := files.contents.lookup l

/-- What is at a place, if anything. -/
def entryAt? (files : Files) (l : Location) : Option FileEntry :=
  match files.bytesAt? l with
  | some bytes => some (.file bytes)
  | none => if files.isDirectory l then some .directory else none

/-! ## Following paths -/

/-- The place where a path starts. -/
def start (files : Files) (path : Path) : Location :=
  if path.isAbsolute then [] else files.workingDirectory

/-- The place that a name leads to. -/
def step (l : Location) (name : String) : Location :=
  if name == "." then l else if name == ".." then l.dropLast else l ++ [name]

/-- Asks a place on the way along a path to be a directory. -/
def enter (files : Files) (path : Path) (l : Location) : Except FileFault Unit :=
  if files.isDirectory l then .ok ()
  else .error (if (files.bytesAt? l).isSome then .notDirectory path else .notFound path)

/-- Follows names from a place; only a directory leads further. -/
def follow (files : Files) (path : Path) : Location → List String → Except FileFault Location
  | l, [] => .ok l
  | l, name :: names => do
    files.enter path l
    if nameLimit < name.utf8ByteSize then throw (.nameTooLong path)
    files.follow path (step l name) names

/-- Asks the text of a path to be one that can be looked up. -/
def checkText (path : Path) (text : String) : Except FileFault Unit :=
  if text.toList.contains '\x00' then .error .nullCharacter
  else if pathLimit < text.utf8ByteSize then .error (.nameTooLong path)
  else .ok ()

/-- The place that a path leads to, whether or not anything is there. -/
def locate (files : Files) (path : Path) : Except FileFault Location := do
  checkText path path.text
  files.follow path (files.start path) path.names

/-- What is found at a path. -/
def find (files : Files) (path : Path) : Except FileFault FileEntry := do
  match files.entryAt? (← files.locate path) with
  | some entry => return entry
  | none => throw (.notFound path)

/-- What is found at a path as it is typed. -/
def findTyped (files : Files) (typed : String) : Except FileFault FileEntry := do
  let path := Path.ofText typed
  if typed == "" then throw (.notFound path)
  checkText path typed
  match files.entryAt? (← files.follow path (files.start path) (Path.typedNames typed)) with
  | some entry => return entry
  | none => throw (.notFound path)

/-- Whether anything is at a path. -/
def exists? (files : Files) (path : Path) : Except FileFault Bool :=
  match files.find path with
  | .ok _ => .ok true
  | .error fault => if fault.isAbsence then .ok false else .error fault

/-! ## Reading and writing -/

def read (files : Files) (path : Path) : Except FileFault (List UInt8) := do
  match ← files.find path with
  | .file bytes => return bytes
  | .directory => throw (.isDirectory path)

/-- Sets the bytes at a place: a file that is there already keeps its place in the list. -/
def setBytes (l : Location) (bytes : List UInt8) :
    List (Location × List UInt8) → List (Location × List UInt8)
  | [] => [(l, bytes)]
  | (m, old) :: rest => if m = l then (l, bytes) :: rest else (m, old) :: setBytes l bytes rest

/-- Writes the file at a path, in place of what it held. -/
def write (files : Files) (path : Path) (bytes : List UInt8) : Except FileFault Files := do
  let l ← files.locate path
  if files.isDirectory l then throw (.isDirectory path)
  else return { files with contents := setBytes l bytes files.contents }

/-- Adds bytes to the end of the file at a path, which need not be there before. -/
def append (files : Files) (path : Path) (bytes : List UInt8) : Except FileFault Files := do
  let l ← files.locate path
  if files.isDirectory l then throw (.isDirectory path)
  else
    let old := (files.bytesAt? l).getD []
    return { files with contents := setBytes l (old ++ bytes) files.contents }

/-! ## Directories -/

/-- Makes the directory at a path, in a directory that is there. -/
def makeOne (files : Files) (path : Path) : Except FileFault Files := do
  checkText path path.text
  match path.names.getLast? with
  | none => throw (.exists path)
  | some last =>
    let l ← files.follow path (files.start path) path.names.dropLast
    files.enter path l
    if last == ".." then throw (.exists path)
    if nameLimit < last.utf8ByteSize then throw (.nameTooLong path)
    if (files.entryAt? (step l last)).isSome then throw (.exists path)
    return { files with directories := files.directories ++ [step l last] }

/-- What making a directory comes to: it is no fault if it is there already. -/
def madeAt (files : Files) (path : Path) (made : Except FileFault Files) :
    Files × Option FileFault :=
  match made with
  | .ok files => (files, none)
  | .error fault =>
    match files.find path with
    | .ok .directory => (files, none)
    | _ => (files, some fault)

/-- Makes the directories along the first so many names of a path. -/
def makeUpTo (files : Files) (path : Path) : Nat → Files × Option FileFault
  | 0 => (files, none)
  | count + 1 =>
    let here := path.upTo (count + 1)
    match files.makeOne here with
    | .error (.notFound _) =>
      match files.makeUpTo path count with
      | (files, none) => files.madeAt here (files.makeOne here)
      | failed => failed
    | made => files.madeAt here made

/-- Makes the directory at a path and those above it, as far as they are not there. What was made
stays, also when a later one cannot be made. -/
def makeDirectory (files : Files) (path : Path) : Files × Option FileFault :=
  files.makeUpTo path path.names.length

/-- Removes a directory with all it holds. -/
def removeDirectory (files : Files) (path : Path) : Files :=
  match files.locate path with
  | .error _ => files
  | .ok l =>
    { files with
      directories := files.directories.filter (!l.isPrefixOf ·)
      contents := files.contents.filter (!l.isPrefixOf ·.1) }

end Files
end Spreadsheet
