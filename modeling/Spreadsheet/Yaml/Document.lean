import Spreadsheet.Yaml.Node
import Spreadsheet.Yaml.Scalar

/-!
# The value of a document

Turns the text of a document into a value. Keys of a mapping are scalars, and the last of several
equal keys gives the value. Collections are opened level by level, so of several faults the one that
lies inside the fewest collections is reported.

The reader is one of many that settings and sheets can be loaded with. It knows collections in block
and in flow style and scalars on one line or in quotes, but no anchors, tags or directives, no dates
and no scalars in blocks.
-/

set_option autoImplicit false

namespace Spreadsheet.Yaml

/-! ## Faults by depth -/

/-- A fault and how many collections are open where it is found. -/
structure Located where
  depth : Nat
  fault : DocumentFault

/-- A result, or why there is none. -/
abbrev Found (α : Type) := Except Located α

namespace Found

/-- A fault where no collection is open. -/
def fail {α : Type} (fault : DocumentFault) : Found α := .error ⟨0, fault⟩

/-- The result inside one more collection. -/
def inside {α : Type} (found : Found α) : Found α :=
  found.mapError fun located => { located with depth := located.depth + 1 }

/-- Two results, or else the fault that lies less deep, of two at one depth the first. -/
def both {α β : Type} (a : Found α) (b : Found β) : Found (α × β) :=
  match a, b with
  | .ok a, .ok b => .ok (a, b)
  | .error first, .ok _ => .error first
  | .ok _, .error second => .error second
  | .error first, .error second => .error (if second.depth < first.depth then second else first)

/-- A list from its first item and the others. -/
def cons {α : Type} (a : Found α) (as : Found (List α)) : Found (List α) :=
  (both a as).map fun (a, as) => a :: as

/-- Two lists in a row. -/
def append {α : Type} (as bs : Found (List α)) : Found (List α) :=
  (both as bs).map fun (as, bs) => as ++ bs

end Found

/-! ## Values of nodes -/

def scalarValue (isPlain : Bool) (text : String) : Found Value :=
  if !isPlain then .ok (.text text)
  else
    match plain text with
    | .ok (.value v) => .ok v
    | .ok _ => .fail .malformed
    | .error fault => .fail (.numeric fault)

def keyOf? : Value → Option Key
  | .null => some .null
  | .bool b => some (.bool b)
  | .int n => some (.int n)
  | .float x => some (.float x)
  | .text s => some (.text s)
  | _ => none

/-- The key that a node stands for; the mark of a default value is a text here. -/
def keyOf (n : Node) : Found Key :=
  match n with
  | .scalar true "=" => .ok (.text "=")
  | .scalar isPlain text =>
    match scalarValue isPlain text with
    | .ok v =>
      match keyOf? v with
      | some k => .ok k
      | none => .fail .malformed
    | .error located => .error located
  | _ => .fail .malformed

/-- Whether a node is the mark that merges a mapping. -/
def isMerge : Node → Bool
  | .scalar true text => text == "<<"
  | _ => false

mutual

/-- Whether whatever the entries of a mapping merge into it are mappings. -/
def mergesMappings : List (Node × Node) → Bool
  | [] => true
  | (k, v) :: rest => (!isMerge k || isMergeable v) && mergesMappings rest

/-- Whether a node is a mapping that can be merged, or a sequence of such. -/
def isMergeable : Node → Bool
  | .mapping entries => mergesMappings entries
  | .sequence items => areMergeable items
  | .scalar .. => false

def areMergeable : List Node → Bool
  | [] => true
  | .mapping entries :: rest => mergesMappings entries && areMergeable rest
  | _ :: _ => false

end

/-- Sets an entry of a document, in which the number that is none is one key. -/
def putEntry : Key → Value → List (Key × Value) → List (Key × Value) :=
  setEntryBy fun a b => a.same b || (a.isNan && b.isNan)

/-- The dictionary of some entries in their order. -/
def dictionary (entries : List (Key × Value)) : Value :=
  .dict (entries.foldl (fun es e => putEntry e.1 e.2 es) [])

mutual

def valueOf : Node → Found Value
  | .scalar isPlain text => scalarValue isPlain text
  | .sequence items => .inside ((valuesOf items).map Value.list)
  | .mapping entries =>
    if mergesMappings entries then
      .inside ((Found.append (mergedOf entries) (entriesOf entries)).map dictionary)
    else .inside (.fail .malformed)

def valuesOf : List Node → Found (List Value)
  | [] => .ok []
  | n :: ns => .cons (valueOf n) (valuesOf ns)

/-- The entries that a mapping states itself. -/
def entriesOf : List (Node × Node) → Found (List (Key × Value))
  | [] => .ok []
  | (k, v) :: rest =>
    if isMerge k then entriesOf rest else .cons (.both (keyOf k) (valueOf v)) (entriesOf rest)

/-- The entries that a mapping takes over from others. -/
def mergedOf : List (Node × Node) → Found (List (Key × Value))
  | [] => .ok []
  | (k, v) :: rest =>
    if isMerge k then .append (takenFrom v) (mergedOf rest) else mergedOf rest

/-- The entries of a mapping, or of the mappings of a sequence, the first of which wins. -/
def takenFrom : Node → Found (List (Key × Value))
  | .mapping entries => .append (mergedOf entries) (entriesOf entries)
  | .sequence items => takenFromAll items
  | .scalar .. => .ok []

def takenFromAll : List Node → Found (List (Key × Value))
  | [] => .ok []
  | n :: rest => .append (takenFromAll rest) (takenFrom n)

end

/-- Line breaks of all kinds as line feeds. -/
def unifyBreaks : List Char → List Char
  | '\r' :: '\n' :: cs => '\n' :: unifyBreaks cs
  | '\r' :: cs => '\n' :: unifyBreaks cs
  | c :: cs => c :: unifyBreaks cs
  | [] => []

/-- The value of the document that a text holds; an empty text holds the null document. -/
def read (text : List Char) : Except DocumentFault Value := do
  match ← Node.ofTokens (tokenize (unifyBreaks text)) with
  | none => return .null
  | some n => (valueOf n).mapError (·.fault)

end Spreadsheet.Yaml
