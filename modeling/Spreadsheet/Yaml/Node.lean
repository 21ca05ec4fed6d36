import Spreadsheet.Yaml.Token

/-!
# Nodes of a document

The tree that the tokens of a document spell. An absent key, value or entry is an empty plain
scalar. Each step works on the tokens that are left. Where the tokens break off, asking for the next
one fails for the reason they do, so of several faults the first in the document is found.
-/

set_option autoImplicit false

namespace Spreadsheet.Yaml

inductive Node where
  | scalar (plain : Bool) (text : String)
  | sequence (items : List Node)
  | mapping (entries : List (Node × Node))

/-- The node for what is left out. -/
def Node.absent : Node := .scalar true ""

namespace Node

abbrev Read (α : Type) := StateT Tokens (Except DocumentFault) α

/-- Gives up: the document is not well formed. -/
def fail {α : Type} : Read α := throw .malformed

/-- The next token, if the document has one. -/
def peek : Read (Option Token) := do
  let tokens ← get
  match tokens.list, tokens.fault with
  | t :: _, _ => return some t
  | [], none => return none
  | [], some fault => throw fault

def isNext (tokens : List Token) : Read Bool :=
  return ((← peek).map tokens.contains).getD false

def drop : Read Unit := modify fun tokens => { tokens with list := tokens.list.drop 1 }

/-- Takes the next token if it is the given one. -/
def accept (t : Token) : Read Bool := do
  if ← isNext [t] then
    drop
    return true
  else return false

def expect (t : Token) : Read Unit := do
  if !(← accept t) then fail

mutual

/-- A node; block collections only where `block` holds, and sequences without an indentation of
their own only where `indentless` holds. -/
def read (block indentless : Bool) : Nat → Read Node
  | 0 => fail
  | fuel + 1 => do
    if indentless && (← isNext [.blockEntry]) then
      return .sequence (← readIndentless fuel)
    else
      match ← peek with
      | some (.scalar plain text) => drop; return .scalar plain text
      | some .flowSequenceStart => drop; return .sequence (← readFlowItems true fuel)
      | some .flowMappingStart => drop; return .mapping (← readFlowEntries true fuel)
      | some .blockSequenceStart =>
        if block then
          drop
          return .sequence (← readItems fuel)
        else fail
      | some .blockMappingStart =>
        if block then
          drop
          return .mapping (← readEntries fuel)
        else fail
      | _ => fail

/-- A node, or an absent one before any of some tokens. -/
def readUnless (stops : List Token) (block indentless : Bool) : Nat → Read Node
  | 0 => fail
  | fuel + 1 => do
    if ← isNext stops then return absent else read block indentless fuel

/-- The value of an entry, absent without a colon. -/
def readValue (stops : List Token) (block indentless : Bool) : Nat → Read Node
  | 0 => fail
  | fuel + 1 => do
    if ← accept .value then readUnless stops block indentless fuel else return absent

def readItems : Nat → Read (List Node)
  | 0 => fail
  | fuel + 1 => do
    if ← accept .blockEntry then
      let item ← readUnless [.blockEntry, .blockEnd] true false fuel
      return item :: (← readItems fuel)
    else
      expect .blockEnd
      return []

def readIndentless : Nat → Read (List Node)
  | 0 => fail
  | fuel + 1 => do
    if ← accept .blockEntry then
      let item ← readUnless [.blockEntry, .key, .value, .blockEnd] true false fuel
      return item :: (← readIndentless fuel)
    else return []

def readEntries : Nat → Read (List (Node × Node))
  | 0 => fail
  | fuel + 1 => do
    if ← accept .key then
      let key ← readUnless [.key, .value, .blockEnd] true true fuel
      let value ← readValue [.key, .value, .blockEnd] true true fuel
      return (key, value) :: (← readEntries fuel)
    else
      expect .blockEnd
      return []

def readFlowItems (first : Bool) : Nat → Read (List Node)
  | 0 => fail
  | fuel + 1 => do
    if ← accept .flowSequenceEnd then return []
    else
      if !first then expect .flowEntry
      if ← accept .key then
        let key ← readUnless [.value, .flowEntry, .flowSequenceEnd] false false fuel
        let value ← readValue [.flowEntry, .flowSequenceEnd] false false fuel
        return .mapping [(key, value)] :: (← readFlowItems false fuel)
      else if ← accept .flowSequenceEnd then return []
      else
        let item ← read false false fuel
        return item :: (← readFlowItems false fuel)

def readFlowEntries (first : Bool) : Nat → Read (List (Node × Node))
  | 0 => fail
  | fuel + 1 => do
    if ← accept .flowMappingEnd then return []
    else
      if !first then expect .flowEntry
      if ← accept .key then
        let key ← readUnless [.value, .flowEntry, .flowMappingEnd] false false fuel
        let value ← readValue [.flowEntry, .flowMappingEnd] false false fuel
        return (key, value) :: (← readFlowEntries false fuel)
      else if ← accept .flowMappingEnd then return []
      else
        let key ← read false false fuel
        return (key, absent) :: (← readFlowEntries false fuel)

end

/-- Drops the marks that end a document. -/
def skipEnds : Read Unit :=
  modify fun tokens => { tokens with list := tokens.list.dropWhile (· == .documentEnd) }

/-- Whether the document has no more tokens. -/
def atEnd : Read Bool := return (← peek).isNone

/-- The only document of a text; nothing when there is none. -/
def readDocument (fuel : Nat) : Read (Option Node) := do
  if ← atEnd then return none
  else
    let explicit ← accept .documentStart
    let node ←
      if explicit && ((← atEnd) || (← isNext [.documentStart, .documentEnd])) then pure absent
      else read true false fuel
    skipEnds
    if ← atEnd then return some node else fail

def ofTokens (tokens : Tokens) : Except DocumentFault (Option Node) :=
  return (← (readDocument (4 * tokens.list.length + 4)).run tokens).1

end Node
end Spreadsheet.Yaml
