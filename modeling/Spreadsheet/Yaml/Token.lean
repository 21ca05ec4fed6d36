import Spreadsheet.Text.Quoted
import Spreadsheet.Yaml.Fault

/-!
# Tokens of a document

Documents nest by indentation and by brackets. The scanner lists the tokens of a document and makes
the structure of the indentation explicit: a block collection has a token where it starts and one
where it ends. A mapping key is recognised late, by the colon after it, so the scanner remembers
where a key may have begun and puts the key token there afterwards. When the scanner cannot go on,
the tokens before the first such place are still those of the document.
-/

set_option autoImplicit false

namespace Spreadsheet.Yaml

inductive Token where
  | blockSequenceStart
  | blockMappingStart
  | blockEnd
  | blockEntry
  | key
  | value
  | flowSequenceStart
  | flowSequenceEnd
  | flowMappingStart
  | flowMappingEnd
  | flowEntry
  | scalar (plain : Bool) (text : String)
  | documentStart
  | documentEnd
  deriving DecidableEq

/-- A place where a mapping key may have begun. -/
structure PossibleKey where
  level : Nat
  tokens : Nat
  /-- Nothing but a key can stand here. -/
  required : Bool
  index : Nat
  line : Nat
  column : Nat

structure Scanner where
  rest : List Char
  index : Nat := 0
  line : Nat := 0
  column : Nat := 0
  /-- How many brackets are open. -/
  flowLevel : Nat := 0
  /-- The column of the innermost block collection. -/
  indent : Int := -1
  /-- The columns of the block collections around it. -/
  indents : List Int := []
  allowKey : Bool := true
  possibleKeys : List PossibleKey := []
  tokens : Array Token := #[]

def isBreak (c : Char) : Bool :=
  c == '\n' || c == '\r' || c == '\x85' || c == '\u2028' || c == '\u2029'

/-- Whether a character ends a word: a blank, a line break or the end of the text. -/
def endsWord : Option Char → Bool
  | none => true
  | some c => c == ' ' || c == '\t' || isBreak c

/-- Whether a separator of documents stands at the front of a line. -/
def isSeparator (mark : Char) : List Char → Bool
  | a :: b :: c :: rest => a == mark && b == mark && c == mark && endsWord rest.head?
  | _ => false

/-- Whether any separator of documents stands at the front of a line. -/
def atSeparator (cs : List Char) : Bool := isSeparator '-' cs || isSeparator '.' cs

/-- Moves past one character. -/
def Scanner.moved (s : Scanner) : Scanner :=
  match s.rest with
  | [] => s
  | c :: rest =>
    if isBreak c && !(c == '\r' && rest.head? == some '\n') then
      { s with rest := rest, index := s.index + 1, line := s.line + 1, column := 0 }
    else
      { s with
        rest := rest
        index := s.index + 1
        column := if c == '\ufeff' then s.column else s.column + 1 }

/-- Whether a place for a key is on an earlier line or too far back. -/
def Scanner.isStale (s : Scanner) (k : PossibleKey) : Bool :=
  k.line != s.line || 1024 < s.index - k.index

/-- The tokens before the first place where a key may still turn out to have begun. -/
def Scanner.settled (s : Scanner) : List Token :=
  let places := (s.possibleKeys.filter (!s.isStale ·)).map (·.tokens)
  s.tokens.toList.take (places.foldl min s.tokens.size)

/-- A step of the scanner. -/
abbrev Scan (α : Type) := StateT Scanner (Except DocumentFault) α

namespace Scan

/-- Gives up: the document is not well formed. -/
def fail {α : Type} : Scan α := throw .malformed

def peek : Scan (Option Char) := return (← get).rest.head?

def skip (n : Nat) : Scan Unit := modify fun s => n.repeat Scanner.moved s

/-- Takes the longest run of characters of one kind. -/
def takeRun (p : Char → Bool) : Scan (List Char) := do
  let run := (← get).rest.takeWhile p
  skip run.length
  return run

/-- Takes a line break if there is one and tells what it stands for. -/
def lineBreak : Scan (List Char) := do
  match (← get).rest with
  | '\r' :: '\n' :: _ => skip 2; return ['\n']
  | c :: _ =>
    if isBreak c then
      skip 1
      return [if c == '\u2028' || c == '\u2029' then c else '\n']
    else return []
  | [] => return []

def emit (t : Token) : Scan Unit := modify fun s => { s with tokens := s.tokens.push t }

def setAllowKey (allow : Bool) : Scan Unit := modify fun s => { s with allowKey := allow }

/-! ## Keys and indentation -/

/-- Forgets the places for keys that are on an earlier line or too far back. -/
def dropStaleKeys : Scan Unit := do
  let s ← get
  if s.possibleKeys.any fun k => s.isStale k && k.required then fail
  else set { s with possibleKeys := s.possibleKeys.filter (!s.isStale ·) }

/-- Forgets the place for a key inside the innermost brackets. -/
def dropKey : Scan Unit := do
  let s ← get
  if s.possibleKeys.any fun k => k.level == s.flowLevel && k.required then fail
  else set { s with possibleKeys := s.possibleKeys.filter (·.level != s.flowLevel) }

/-- Remembers that a key may begin here. -/
def markKey : Scan Unit := do
  if (← get).allowKey then
    dropKey
    modify fun s =>
      let key : PossibleKey := {
        level := s.flowLevel
        tokens := s.tokens.size
        required := s.flowLevel == 0 && s.indent == s.column
        index := s.index
        line := s.line
        column := s.column }
      { s with possibleKeys := key :: s.possibleKeys }

/-- Closes the block collections that are indented further than a column. -/
def closeBlocks (column : Int) : Scan Unit :=
  modify fun s =>
    if s.flowLevel != 0 then s
    else
      let levels := s.indent :: s.indents
      let closed := levels.takeWhile (column < ·)
      let levels := levels.drop closed.length
      { s with
        indent := levels.headD (-1)
        indents := levels.drop 1
        tokens := s.tokens ++ Array.replicate closed.length .blockEnd }

/-- Opens a block collection at a column, unless one is open there; tells whether it did. -/
def openBlock (column : Nat) : Scan Bool := do
  let s ← get
  if s.indent < column then
    set { s with indent := column, indents := s.indent :: s.indents }
    return true
  else return false

/-! ## Scalars -/

/-- The line breaks of a folded scalar and the separator that an unbroken line would need. -/
def folded (first : List Char) (more : List Char) : List Char :=
  (if first != ['\n'] then first else if more.isEmpty then [' '] else []) ++ more

/-- The blanks and breaks after a line of a plain scalar; nothing where a document ends. -/
def plainBreaks : Nat → Scan (Option (List Char))
  | 0 => return some []
  | fuel + 1 => do
    match ← peek with
    | some ' ' => skip 1; plainBreaks fuel
    | some c =>
      if isBreak c then
        let first ← lineBreak
        if atSeparator (← get).rest then return none
        return (← plainBreaks fuel).map (first ++ ·)
      else return some []
    | none => return some []

/-- What stands between two words of a plain scalar. -/
def plainSpaces : Scan (List Char) := do
  let blanks ← takeRun (· == ' ')
  match ← peek with
  | some c =>
    if isBreak c then
      let first ← lineBreak
      setAllowKey true
      if atSeparator (← get).rest then return []
      match ← plainBreaks (← get).rest.length with
      | none => return []
      | some more => return folded first more
    else return blanks
  | none => return blanks

/-- The length of a word of a plain scalar. -/
def plainWord (inFlow : Bool) : List Char → Nat
  | [] => 0
  | c :: rest =>
    let ends := endsWord (some c) ||
      (c == ':' && (endsWord rest.head? ||
        (inFlow && rest.head?.any ",[]\x7b\x7d".toList.contains))) ||
      (inFlow && ",?[]\x7b\x7d".toList.contains c)
    if ends then 0 else plainWord inFlow rest + 1

/-- The words of a plain scalar, `spaces` before the first of them. -/
def plainWords (indent : Int) (spaces : List Char) : Nat → Scan (List Char)
  | 0 => return []
  | fuel + 1 => do
    let s ← get
    let length := plainWord (s.flowLevel != 0) s.rest
    if s.rest.head? == some '#' || length == 0 then return []
    else
      setAllowKey false
      skip length
      let between ← plainSpaces
      let word := spaces ++ s.rest.take length
      let s ← get
      if between.isEmpty || s.rest.head? == some '#' || (s.flowLevel == 0 && s.column < indent) then
        return word
      else return word ++ (← plainWords indent between fuel)

def plainScalar : Scan Unit := do
  markKey
  setAllowKey false
  let s ← get
  emit (.scalar true (String.ofList (← plainWords (s.indent + 1) [] (s.rest.length + 1))))

/-- The characters that stand for others after a backslash. -/
def escapes : List (Char × Char) :=
  [('0', '\x00'), ('a', '\x07'), ('b', '\x08'), ('t', '\t'), ('\t', '\t'), ('n', '\n'),
    ('v', '\x0b'), ('f', '\x0c'), ('r', '\r'), ('e', '\x1b'), (' ', ' '), ('"', '"'), ('\\', '\\'),
    ('/', '/'), ('N', '\x85'), ('_', '\xa0'), ('L', '\u2028'), ('P', '\u2029')]

/-- Reads a character given by its code in `count` digits. -/
def codedChar (count : Nat) : Scan (List Char) := do
  let ds := (← get).rest.take count
  match ds.mapM Text.hexValue? with
  | some values =>
    let n := values.foldl (fun n d => n * 16 + d) 0
    if values.length != count then fail
    else if n < 0x110000 then
      skip count
      return [Char.ofNat n]
    else throw (.unknownCharacter n)
  | none => fail

/-- Empty lines inside a quoted scalar. -/
def quotedBreaks : Nat → Scan (List Char)
  | 0 => return []
  | fuel + 1 => do
    if atSeparator (← get).rest then fail
    let _ ← takeRun fun c => c == ' ' || c == '\t'
    match ← lineBreak with
    | [] => return []
    | first => return first ++ (← quotedBreaks fuel)

/-- What a backslash and the characters after it stand for. -/
def escape : Scan (List Char) := do
  skip 1
  match ← peek with
  | none => fail
  | some c =>
    match escapes.lookup c with
    | some d => skip 1; return [d]
    | none =>
      if c == 'x' then skip 1; codedChar 2
      else if c == 'u' then skip 1; codedChar 4
      else if c == 'U' then skip 1; codedChar 8
      else if isBreak c then
        let _ ← lineBreak
        quotedBreaks ((← get).rest.length + 1)
      else fail

/-- The blanks and breaks inside a quoted scalar. -/
def quotedSpaces : Scan (List Char) := do
  let blanks ← takeRun fun c => c == ' ' || c == '\t'
  match ← peek with
  | none => fail
  | some c =>
    if isBreak c then
      let first ← lineBreak
      return folded first (← quotedBreaks ((← get).rest.length + 1))
    else return blanks

/-- The rest of a scalar between quotes, and the closing quote. -/
def quotedRest (quote : Char) : Nat → Scan (List Char)
  | 0 => fail
  | fuel + 1 => do
    match (← get).rest with
    | [] => fail
    | c :: rest =>
      if c == quote then
        if quote == '\'' && rest.head? == some '\'' then
          skip 2
          return '\'' :: (← quotedRest quote fuel)
        else
          skip 1
          return []
      else if quote == '"' && c == '\\' then return (← escape) ++ (← quotedRest quote fuel)
      else if endsWord (some c) then return (← quotedSpaces) ++ (← quotedRest quote fuel)
      else
        skip 1
        return c :: (← quotedRest quote fuel)

def quotedScalar (quote : Char) : Scan Unit := do
  markKey
  setAllowKey false
  skip 1
  emit (.scalar false (String.ofList (← quotedRest quote ((← get).rest.length + 1))))

/-! ## Indicators -/

def documentMark (t : Token) : Scan Unit := do
  closeBlocks (-1)
  dropKey
  setAllowKey false
  skip 3
  emit t

def flowStart (t : Token) : Scan Unit := do
  markKey
  modify fun s => { s with flowLevel := s.flowLevel + 1, allowKey := true }
  skip 1
  emit t

def flowEnd (t : Token) : Scan Unit := do
  if (← get).flowLevel == 0 then fail
  dropKey
  modify fun s => { s with flowLevel := s.flowLevel - 1, allowKey := false }
  skip 1
  emit t

def flowEntry : Scan Unit := do
  setAllowKey true
  dropKey
  skip 1
  emit .flowEntry

/-- Starts a block collection at the present column if this indicator is its first. -/
def blockIndicator (start : Token) : Scan Unit := do
  let s ← get
  if s.flowLevel == 0 then
    if !s.allowKey then fail
    if ← openBlock s.column then emit start

def blockEntry : Scan Unit := do
  blockIndicator .blockSequenceStart
  setAllowKey true
  dropKey
  skip 1
  emit .blockEntry

def explicitKey : Scan Unit := do
  blockIndicator .blockMappingStart
  modify fun s => { s with allowKey := s.flowLevel == 0 }
  dropKey
  skip 1
  emit .key

/-- A colon: it makes a key of what may have begun as one, or stands after an explicit key. -/
def mappingValue : Scan Unit := do
  let s ← get
  match s.possibleKeys.find? (·.level == s.flowLevel) with
  | some k =>
    set { s with possibleKeys := s.possibleKeys.filter (·.level != s.flowLevel) }
    let starts ← if s.flowLevel == 0 then openBlock k.column else pure false
    let inserted := if starts then #[.blockMappingStart, .key] else #[.key]
    modify fun s =>
      { s with
        tokens := s.tokens.extract 0 k.tokens ++ inserted ++ s.tokens.extract k.tokens s.tokens.size
        allowKey := false }
  | none =>
    blockIndicator .blockMappingStart
    modify fun s => { s with allowKey := s.flowLevel == 0 }
    dropKey
  skip 1
  emit .value

/-- Skips blanks, comments and line breaks. -/
def skipToToken : Nat → Scan Unit
  | 0 => return ()
  | fuel + 1 => do
    let _ ← takeRun (· == ' ')
    if (← peek) == some '#' then
      let _ ← takeRun (!isBreak ·)
    match ← lineBreak with
    | [] => return ()
    | _ =>
      modify fun s => { s with allowKey := s.allowKey || s.flowLevel == 0 }
      skipToToken fuel

/-- Whether a plain scalar can begin with the first of some characters. -/
def startsPlain (inFlow : Bool) : List Char → Bool
  | [] => false
  | c :: rest =>
    !(endsWord (some c) || "-?:,[]\x7b\x7d#&*!|>'\"%@".toList.contains c || c == '\x60') ||
      (!endsWord rest.head? && (c == '-' || (!inFlow && (c == '?' || c == ':'))))

/-- Takes the token at the front. -/
def token (c : Char) (rest : List Char) : Scan Unit := do
  let s ← get
  let inFlow := s.flowLevel != 0
  let wordEnds := endsWord rest.head?
  if s.column == 0 && isSeparator '-' (c :: rest) then documentMark .documentStart
  else if s.column == 0 && isSeparator '.' (c :: rest) then documentMark .documentEnd
  else if c == '[' then flowStart .flowSequenceStart
  else if c == '\x7b' then flowStart .flowMappingStart
  else if c == ']' then flowEnd .flowSequenceEnd
  else if c == '\x7d' then flowEnd .flowMappingEnd
  else if c == ',' then flowEntry
  else if c == '-' && wordEnds then blockEntry
  else if c == '?' && (inFlow || wordEnds) then explicitKey
  else if c == ':' && (inFlow || wordEnds) then mappingValue
  else if c == '\'' || c == '"' then quotedScalar c
  else if startsPlain inFlow (c :: rest) then plainScalar
  else fail

/-- Takes the next token; tells whether there is one. -/
def next : Scan Bool := do
  skipToToken ((← get).rest.length + 1)
  dropStaleKeys
  closeBlocks (← get).column
  match (← get).rest with
  | [] =>
    closeBlocks (-1)
    dropKey
    return false
  | c :: rest =>
    token c rest
    return true

end Scan

/-- The characters that a document may hold. -/
def isAllowed (c : Char) : Bool :=
  let n := c.toNat
  n == 0x09 || n == 0x0a || n == 0x0d || (0x20 ≤ n && n ≤ 0x7e) || n == 0x85 ||
    (0xa0 ≤ n && n ≤ 0xfffd) || 0x10000 ≤ n

/-- The tokens of a document. -/
structure Tokens where
  list : List Token := []
  /-- Why the tokens break off before the end of the document, if they do. -/
  fault : Option DocumentFault := none

/-- The tokens that a scanner has taken and those that it has still to take. -/
def scan : Nat → Scanner → Tokens
  | 0, s => ⟨s.settled, some .malformed⟩
  | fuel + 1, s =>
    match Scan.next.run s with
    | .ok (true, s) => scan fuel s
    | .ok (false, s) => ⟨s.tokens.toList, none⟩
    | .error fault => ⟨s.settled, some fault⟩

def tokenize (cs : List Char) : Tokens :=
  if !cs.all isAllowed then ⟨[], some .malformed⟩
  else
    let cs := if cs.head? == some '\ufeff' then cs.drop 1 else cs
    scan (cs.length + 1) { rest := cs }

end Spreadsheet.Yaml
