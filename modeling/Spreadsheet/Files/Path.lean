/-!
# Paths

A path is a list of names, with slashes in front of them if it starts at the root. Names that stand
for the place they are in are left out; the name of the place above is kept, because only the files
themselves tell where it leads. The names that were typed still have them all, and asking whether
something is there follows these.
-/

set_option autoImplicit false

namespace Spreadsheet

structure Path where
  /-- The slashes that a path from the root starts with. -/
  root : String := ""
  names : List String := []
  deriving DecidableEq, Inhabited

namespace Path

/-- The parts of a text between its slashes. -/
def splitNames : List Char → List (List Char)
  | [] => [[]]
  | c :: cs =>
    if c == '/' then [] :: splitNames cs
    else
      match splitNames cs with
      | name :: names => (c :: name) :: names
      | [] => [[c]]

/-- Two slashes in front of a path are kept; any other number of them counts as one. -/
def rootOf (cs : List Char) : String :=
  match (cs.takeWhile (· == '/')).length with
  | 0 => ""
  | 2 => "//"
  | _ => "/"

def ofText (text : String) : Path where
  root := rootOf text.toList
  names := ((splitNames text.toList).map String.ofList).filter fun name => name != "" && name != "."

/-- The names of a typed path, the ones for the place they are in included. A slash at the end
counts as such a name: both ask for a directory. -/
def typedNames (typed : String) : List String :=
  let names := ((splitNames typed.toList).map String.ofList).filter (· != "")
  if typed.toList.getLast? == some '/' then names ++ ["."] else names

def text (p : Path) : String :=
  if p.root == "" && p.names.isEmpty then "." else p.root ++ String.intercalate "/" p.names

def isAbsolute (p : Path) : Bool := p.root != ""

def join (p q : Path) : Path :=
  if q.isAbsolute then q else { p with names := p.names ++ q.names }

/-- The path that ends after the first so many names. -/
def upTo (p : Path) (count : Nat) : Path := { p with names := p.names.take count }

def child (p : Path) (name : String) : Path := { p with names := p.names ++ [name] }

end Path
end Spreadsheet
