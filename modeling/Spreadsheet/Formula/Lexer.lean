import Spreadsheet.Address

/-!
# Splitting a formula into tokens

`lexeme?` finds the token at the front of a text, always the longest of its kind; letters with
digits after them are a cell and not a name. `scan` lists the tokens of a whole text with their
positions, skipping spaces.
-/

set_option autoImplicit false

namespace Spreadsheet
namespace Lexer

/-- The characters that may stand between tokens. -/
def isSpace (c : Char) : Bool :=
  c == ' ' || c == '\t' || c == '\x0c' || c == '\r' || c == '\n'

def isOperator (c : Char) : Bool := c == '+' || c == '-' || c == '*' || c == '/'

def isPunctuation (c : Char) : Bool := c == '(' || c == ')' || c == ',' || c == ':'

/-- A cell, or else a name: letters with or without digits after them. -/
def word? (cs : List Char) : Option (TokenKind × List Char) :=
  let letters := cs.takeWhile isLetter
  let digits := (cs.dropWhile isLetter).takeWhile Decimal.isDigit
  if letters.isEmpty then none
  else if digits.isEmpty then some (.identifier, letters)
  else some (.cell, letters ++ digits)

/-- Digits with at most one point, and at least one digit. -/
def number? (cs : List Char) : Option (TokenKind × List Char) :=
  let whole := cs.takeWhile Decimal.isDigit
  match cs.dropWhile Decimal.isDigit with
  | '.' :: r =>
    let decimals := r.takeWhile Decimal.isDigit
    if whole.isEmpty && decimals.isEmpty then none else some (.number, whole ++ '.' :: decimals)
  | _ => if whole.isEmpty then none else some (.number, whole)

/-- A text between two equal quotes, which do not occur inside. -/
def text? : List Char → Option (TokenKind × List Char)
  | q :: r =>
    if q == '"' || q == '\'' then
      match r.dropWhile (· != q) with
      | _ :: _ => some (.text, q :: r.takeWhile (· != q) ++ [q])
      | [] => none
    else none
  | [] => none

def symbol? : List Char → Option (TokenKind × List Char)
  | c :: _ =>
    if isOperator c then some (.operator, [c])
    else if isPunctuation c then some (.punctuation, [c])
    else none
  | [] => none

/-- The token at the front of a text: its kind and its characters. -/
def lexeme? (cs : List Char) : Option (TokenKind × List Char) :=
  word? cs <|> number? cs <|> text? cs <|> symbol? cs

/-- A lexeme is never empty. -/
theorem lexeme?_ne_nil {cs : List Char} {kind : TokenKind} {lexeme : List Char}
    (h : lexeme? cs = some (kind, lexeme)) : lexeme ≠ [] := by
  simp only [lexeme?, Option.orElse_eq_orElse, Option.orElse_eq_or, Option.or_eq_some_iff] at h
  rcases h with h | ⟨-, h | ⟨-, h | ⟨-, h⟩⟩⟩
  · simp only [word?] at h
    grind [List.isEmpty_iff, List.append_eq_nil_iff]
  · simp only [number?] at h
    grind [List.isEmpty_iff, List.append_eq_nil_iff]
  · unfold text? at h
    grind
  · unfold symbol? at h
    grind

/-- The tokens of a text that starts at `position`. -/
def scan (position : Nat) (cs : List Char) : Except SyntaxFault (List Token) :=
  match cs with
  | [] => .ok []
  | c :: r =>
    if isSpace c then scan (position + 1) r
    else
      match _h : lexeme? (c :: r) with
      | none => .error (.unexpectedCharacter c position)
      | some (kind, lexeme) =>
        match scan (position + lexeme.length) ((c :: r).drop lexeme.length) with
        | .error fault => .error fault
        | .ok tokens => .ok (⟨kind, String.ofList lexeme, position⟩ :: tokens)
  termination_by cs.length
  decreasing_by
    · simp
    · have := List.length_pos_iff.2 (lexeme?_ne_nil _h)
      simp only [List.length_drop, List.length_cons]
      omega

end Lexer

/-- The tokens of a formula, its leading equals sign already removed. -/
def tokenize (source : String) : Except SyntaxFault (List Token) := Lexer.scan 0 source.toList

end Spreadsheet
