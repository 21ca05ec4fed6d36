import Spreadsheet.Formula.Lexer

/-!
# Words and symbols

The tokens of a formula are words, which stand for operands, and symbols, which are known by their
spelling alone. In the tokens of a text the two never meet: a word starts with a letter, a digit, a
point or a quote, and no symbol does.
-/

set_option autoImplicit false

namespace Spreadsheet

/-- The spellings of the operators and of the punctuation. -/
def symbols : List String := ["+", "-", "*", "/", "(", ")", ",", ":"]

def Token.isWord (t : Token) : Bool :=
  match t.kind with
  | .number | .text | .cell | .identifier => true
  | .operator | .punctuation => false

/-- The spellings of the words, in order. -/
def wordTexts (ts : List Token) : List String := (ts.filter Token.isWord).map Token.text

/-- No word is spelled like a symbol. -/
def AreLexed (ts : List Token) : Prop := ∀ t ∈ ts, t.isWord = true → t.text ∉ symbols

variable {t : Token} {ts us : List Token}

theorem AreLexed.head (h : AreLexed (t :: ts)) (ht : t.isWord = true) : t.text ∉ symbols :=
  h t List.mem_cons_self ht

theorem AreLexed.of_suffix (h : AreLexed ts) (hSuffix : us <:+ ts) : AreLexed us :=
  fun t ht => h t (hSuffix.subset ht)

theorem AreLexed.tail (h : AreLexed (t :: ts)) : AreLexed ts := h.of_suffix (List.suffix_cons t ts)

theorem AreLexed.ne (h : AreLexed (t :: ts)) (ht : t.isWord = true) {symbol : String}
    (hSymbol : symbol ∈ symbols) : t.text ≠ symbol := by
  rintro rfl
  exact h.head ht hSymbol

theorem wordTexts_word (ht : t.isWord = true) : wordTexts (t :: ts) = t.text :: wordTexts ts := by
  simp [wordTexts, ht]

theorem wordTexts_symbol (ht : t.isWord = false) : wordTexts (t :: ts) = wordTexts ts := by
  simp [wordTexts, ht]

theorem AreLexed.wordTexts_skip (h : AreLexed (t :: ts)) {symbol : String} (hText : t.text = symbol)
    (hSymbol : symbol ∈ symbols) : wordTexts (t :: ts) = wordTexts ts := by
  apply wordTexts_symbol
  rw [Bool.eq_false_iff]
  exact fun ht => h.ne ht hSymbol hText

namespace Lexer

def isSymbol (c : Char) : Bool := isOperator c || isPunctuation c

theorem exists_of_mem_symbols {text : String} (h : text ∈ symbols) :
    ∃ c, isSymbol c = true ∧ text.toList = [c] := by
  simp only [symbols, List.mem_cons, List.not_mem_nil, or_false] at h
  rcases h with rfl | rfl | rfl | rfl | rfl | rfl | rfl | rfl
  · exact ⟨'+', rfl, rfl⟩
  · exact ⟨'-', rfl, rfl⟩
  · exact ⟨'*', rfl, rfl⟩
  · exact ⟨'/', rfl, rfl⟩
  · exact ⟨'(', rfl, rfl⟩
  · exact ⟨')', rfl, rfl⟩
  · exact ⟨',', rfl, rfl⟩
  · exact ⟨':', rfl, rfl⟩

/-- The characters that words start with. -/
def opensWord (c : Char) : Bool :=
  isLetter c || Decimal.isDigit c || c == '.' || c == '"' || c == '\''

theorem not_isSymbol_of_opensWord {c : Char} (h : opensWord c = true) : isSymbol c = false := by
  have hAll : ∀ c ∈ ['+', '-', '*', '/', '(', ')', ',', ':'], opensWord c = false := by
    simp only [List.forall_mem_cons, List.not_mem_nil, false_imp_iff, implies_true, and_true]
    refine ⟨?_, ?_, ?_, ?_, ?_, ?_, ?_, ?_⟩ <;> rfl
  rw [Bool.eq_false_iff]
  intro hSymbol
  have hMem : c ∈ ['+', '-', '*', '/', '(', ')', ',', ':'] := by
    simpa [isSymbol, isOperator, isPunctuation, or_assoc] using hSymbol
  rw [hAll c hMem] at h
  cases h

variable {cs lexeme : List Char} {kind : TokenKind}

theorem of_takeWhile_eq_cons {p : Char → Bool} {c : Char} {r : List Char}
    (h : cs.takeWhile p = c :: r) : p c = true := by
  cases cs with
  | nil => cases h
  | cons a cs =>
    rw [List.takeWhile_cons] at h
    split at h
    · cases h
      assumption
    · cases h

theorem takeWhile_opens {p : Char → Bool} (h : ¬ (cs.takeWhile p).isEmpty = true) :
    ∃ c r, cs.takeWhile p = c :: r ∧ p c = true := by
  obtain ⟨c, r, hCons⟩ := List.exists_cons_of_ne_nil (mt List.isEmpty_iff.mpr h)
  exact ⟨c, r, hCons, of_takeWhile_eq_cons hCons⟩

theorem word?_opens (h : word? cs = some (kind, lexeme)) :
    ∃ c r, lexeme = c :: r ∧ opensWord c = true := by
  simp only [word?] at h
  split at h
  · cases h
  · rename_i hLetters
    obtain ⟨c, r, hCons, hc⟩ := takeWhile_opens hLetters
    have hOpens : opensWord c = true := by simp [opensWord, hc]
    rw [hCons] at h
    split at h <;> cases h
    · exact ⟨c, r, rfl, hOpens⟩
    · exact ⟨c, _, rfl, hOpens⟩

theorem number?_opens (h : number? cs = some (kind, lexeme)) :
    ∃ c r, lexeme = c :: r ∧ opensWord c = true := by
  have hDigits : ∀ c, Decimal.isDigit c = true → opensWord c = true := by
    intro c hc
    simp [opensWord, hc]
  simp only [number?] at h
  split at h
  · split at h <;> cases h
    cases hWhole : cs.takeWhile Decimal.isDigit with
    | nil => exact ⟨'.', _, rfl, rfl⟩
    | cons c r =>
      exact ⟨c, _, rfl, hDigits c (of_takeWhile_eq_cons hWhole)⟩
  · split at h
    · cases h
    · rename_i hWhole
      cases h
      obtain ⟨c, r, hCons, hc⟩ := takeWhile_opens hWhole
      exact ⟨c, r, hCons, hDigits c hc⟩

theorem text?_opens (h : text? cs = some (kind, lexeme)) :
    ∃ c r, lexeme = c :: r ∧ opensWord c = true := by
  unfold text? at h
  split at h
  · split at h
    · rename_i q r hQuote
      have hOpens : opensWord q = true := by
        rw [opensWord, Bool.or_assoc, hQuote, Bool.or_true]
      split at h <;> cases h
      exact ⟨q, _, rfl, hOpens⟩
    · cases h
  · cases h

theorem symbol?_kind (h : symbol? cs = some (kind, lexeme)) :
    kind = .operator ∨ kind = .punctuation := by
  unfold symbol? at h
  grind

/-- A lexeme is a symbol, or it starts as words do. -/
theorem lexeme?_cases (h : lexeme? cs = some (kind, lexeme)) :
    (kind = .operator ∨ kind = .punctuation) ∨ ∃ c r, lexeme = c :: r ∧ opensWord c = true := by
  simp only [lexeme?, Option.orElse_eq_orElse, Option.orElse_eq_or, Option.or_eq_some_iff] at h
  rcases h with h | ⟨-, h | ⟨-, h | ⟨-, h⟩⟩⟩
  · exact .inr (word?_opens h)
  · exact .inr (number?_opens h)
  · exact .inr (text?_opens h)
  · exact .inl (symbol?_kind h)

theorem lexeme?_word (h : lexeme? cs = some (kind, lexeme)) (position : Nat)
    (hWord : (Token.mk kind (String.ofList lexeme) position).isWord = true) :
    String.ofList lexeme ∉ symbols := by
  intro hSymbol
  obtain ⟨c, hc, hText⟩ := exists_of_mem_symbols hSymbol
  rcases lexeme?_cases h with (rfl | rfl) | ⟨c', r, rfl, hOpens⟩
  · cases hWord
  · cases hWord
  · rw [String.toList_ofList] at hText
    cases hText
    rw [not_isSymbol_of_opensWord hOpens] at hc
    cases hc

theorem scan_areLexed {position : Nat} (h : scan position cs = .ok ts) : AreLexed ts := by
  fun_induction scan position cs generalizing ts with
  | case1 =>
    cases h
    exact nofun
  | case2 _ c r hSpace ih => exact ih h
  | case3 => cases h
  | case4 _ c r hSpace kind lexeme hLexeme fault hRest ih => cases h
  | case5 position c r hSpace kind lexeme hLexeme rest hRest ih =>
    cases h
    intro t ht hWord
    rcases List.mem_cons.mp ht with rfl | ht
    · exact lexeme?_word hLexeme position hWord
    · exact ih hRest t ht hWord

end Lexer

theorem areLexed_of_tokenize {source : String} (h : tokenize source = .ok ts) : AreLexed ts :=
  Lexer.scan_areLexed h

end Spreadsheet
