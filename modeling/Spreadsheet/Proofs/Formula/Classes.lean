import Spreadsheet.Proofs.Address.Readable
import Spreadsheet.Proofs.Formula.Lexemes

/-!
# The classes of tokens

`Spells` tells which lexemes belong to a class. The classes overlap, so a lexeme at the front of a
text is settled by what follows it as well: `Continues` tells which characters it would have to take
in. `lexeme?_eq_some` joins the two: the lexer finds the lexeme of a class that nothing continues.
-/

set_option autoImplicit false

namespace Spreadsheet.Lexer

def AreLetters (cs : List Char) : Prop := ∀ c ∈ cs, isLetter c = true

def AreDigits (cs : List Char) : Prop := ∀ c ∈ cs, Decimal.isDigit c = true

def isQuote (c : Char) : Bool := c == '"' || c == '\''

/-- Digits with at most one point among them, and at least one digit. -/
inductive IsNumeral : List Char → Prop
  | whole {digits : List Char} (hNonempty : digits ≠ []) (h : AreDigits digits) : IsNumeral digits
  | pointed {digits decimals : List Char} (hNonempty : digits ≠ [] ∨ decimals ≠ [])
      (hDigits : AreDigits digits) (hDecimals : AreDigits decimals) :
      IsNumeral (digits ++ '.' :: decimals)

def Spells : TokenKind → List Char → Prop
  | .cell, l => ∃ letters digits, letters ≠ [] ∧ digits ≠ [] ∧ AreLetters letters ∧
      AreDigits digits ∧ l = letters ++ digits
  | .identifier, l => l ≠ [] ∧ AreLetters l
  | .number, l => IsNumeral l
  | .text, l => ∃ q inside, isQuote q = true ∧ q ∉ inside ∧ l = q :: (inside ++ [q])
  | .operator, l => ∃ c, isOperator c = true ∧ l = [c]
  | .punctuation, l => ∃ c, isPunctuation c = true ∧ l = [c]

/-- The character cannot come right after the lexeme: it would belong to the same word. -/
def Continues : TokenKind → List Char → Char → Prop
  | .cell, _, c => Decimal.isDigit c = true
  | .identifier, _, c => isLetter c = true ∨ Decimal.isDigit c = true
  | .number, l, c => IsNumeral (l ++ [c])
  | _, _, _ => False

/-- The lexeme ends where the rest of the text begins. -/
def EndsBefore (kind : TokenKind) (l rest : List Char) : Prop :=
  ∀ c ∈ rest.head?, ¬ Continues kind l c

variable {kind : TokenKind} {c : Char} {cs l r rest : List Char}

/-! ## Characters -/

theorem isDigit_toNat (c : Char) : Decimal.isDigit c = true ↔ 48 ≤ c.toNat ∧ c.toNat ≤ 57 := by
  simp only [Decimal.isDigit, Bool.and_eq_true, decide_eq_true_eq, Char.le_def]
  rfl

theorem isDigit_of_isLetter (h : isLetter c = true) : Decimal.isDigit c = false := by
  rw [Bool.eq_false_iff]
  intro hDigit
  rw [Coordinate.isLetter_iff] at h
  rw [isDigit_toNat] at hDigit
  omega

theorem isLetter_of_isDigit (h : Decimal.isDigit c = true) : isLetter c = false := by
  rw [Bool.eq_false_iff]
  intro hLetter
  rw [isDigit_of_isLetter hLetter] at h
  cases h

/-- The characters that lexemes of several characters are made of, texts apart. -/
def isInner (c : Char) : Bool := isLetter c || Decimal.isDigit c || c == '.'

theorem isInner_of_isSpace (h : isSpace c = true) : isInner c = false := by
  simp only [isSpace, Bool.or_eq_true, beq_iff_eq] at h
  rcases h with (((rfl | rfl) | rfl) | rfl) | rfl <;> decide

theorem isInner_of_isSymbol (h : isSymbol c = true) : isInner c = false := by
  simp only [isSymbol, isOperator, isPunctuation, Bool.or_eq_true, beq_iff_eq] at h
  rcases h with (((rfl | rfl) | rfl) | rfl) | (((rfl | rfl) | rfl) | rfl) <;> decide

theorem isQuote_of_isSymbol (h : isSymbol c = true) : isQuote c = false := by
  simp only [isSymbol, isOperator, isPunctuation, Bool.or_eq_true, beq_iff_eq] at h
  rcases h with (((rfl | rfl) | rfl) | rfl) | (((rfl | rfl) | rfl) | rfl) <;> decide

theorem isInner_of_isQuote (h : isQuote c = true) : isInner c = false := by
  simp only [isQuote, Bool.or_eq_true, beq_iff_eq] at h
  rcases h with rfl | rfl <;> decide

theorem IsNumeral.digit_or_point (h : IsNumeral l) :
    ∀ c ∈ l, Decimal.isDigit c = true ∨ c = '.' := by
  intro c hc
  cases h with
  | whole _ h => exact .inl (h c hc)
  | pointed _ hDigits hDecimals =>
    rcases List.mem_append.mp hc with hc | hc
    · exact .inl (hDigits c hc)
    · rcases List.mem_cons.mp hc with rfl | hc
      · exact .inr rfl
      · exact .inl (hDecimals c hc)

theorem Continues.inner (h : Continues kind l c) : isInner c = true := by
  cases kind with
  | cell =>
    have hc : Decimal.isDigit c = true := h
    simp [isInner, hc]
  | identifier => rcases h with hc | hc <;> simp [isInner, hc]
  | number => rcases IsNumeral.digit_or_point h c (by simp) with hc | rfl <;> simp [isInner, *]
  | text | operator | punctuation => exact h.elim

theorem endsBefore_nil : EndsBefore kind l [] := nofun

theorem endsBefore_cons (h : isInner c = false) : EndsBefore kind l (c :: rest) := by
  intro c' hc' hContinues
  cases hc'
  rw [hContinues.inner] at h
  cases h

/-! ## How lexemes start -/

def opens : TokenKind → Char → Bool
  | .cell, c | .identifier, c => isLetter c
  | .number, c => Decimal.isDigit c || c == '.'
  | .text, c => isQuote c
  | .operator, c => isOperator c
  | .punctuation, c => isPunctuation c

theorem Spells.opens (h : Spells kind l) : ∃ c r, l = c :: r ∧ opens kind c = true := by
  cases kind with
  | cell =>
    obtain ⟨letters, digits, hNonempty, -, hLetters, -, rfl⟩ := h
    obtain ⟨c, r, rfl⟩ := List.exists_cons_of_ne_nil hNonempty
    exact ⟨c, r ++ digits, rfl, hLetters c List.mem_cons_self⟩
  | identifier =>
    obtain ⟨hNonempty, hLetters⟩ := h
    obtain ⟨c, r, rfl⟩ := List.exists_cons_of_ne_nil hNonempty
    exact ⟨c, r, rfl, hLetters c List.mem_cons_self⟩
  | number =>
    cases h with
    | whole hNonempty hDigits =>
      obtain ⟨c, r, rfl⟩ := List.exists_cons_of_ne_nil hNonempty
      exact ⟨c, r, rfl, by simp [Lexer.opens, hDigits c List.mem_cons_self]⟩
    | @pointed digits decimals _ hDigits _ =>
      cases digits with
      | nil => exact ⟨'.', decimals, rfl, rfl⟩
      | cons c r =>
        exact ⟨c, r ++ '.' :: decimals, rfl,
          by simp [Lexer.opens, hDigits c List.mem_cons_self]⟩
  | text =>
    obtain ⟨q, inside, hq, -, rfl⟩ := h
    exact ⟨q, inside ++ [q], rfl, hq⟩
  | operator | punctuation =>
    obtain ⟨c, hc, rfl⟩ := h
    exact ⟨c, [], rfl, hc⟩

theorem isSpace_of_opens (h : opens kind c = true) : isSpace c = false := by
  rw [Bool.eq_false_iff]
  intro hSpace
  simp only [isSpace, Bool.or_eq_true, beq_iff_eq] at hSpace
  rcases hSpace with (((rfl | rfl) | rfl) | rfl) | rfl <;> cases kind <;> revert h <;> decide

theorem Spells.ne_nil (h : Spells kind l) : l ≠ [] := by
  obtain ⟨c, r, rfl, -⟩ := h.opens
  exact List.cons_ne_nil c r

/-! ## Runs of characters -/

theorem takeWhile_run {p : Char → Bool} (hRun : ∀ c ∈ l, p c = true)
    (hRest : ∀ c ∈ rest.head?, p c = false) : (l ++ rest).takeWhile p = l := by
  rw [List.takeWhile_append_of_pos hRun]
  cases rest with
  | nil => simp
  | cons c r => simp [hRest c rfl]

theorem dropWhile_run {p : Char → Bool} (hRun : ∀ c ∈ l, p c = true)
    (hRest : ∀ c ∈ rest.head?, p c = false) : (l ++ rest).dropWhile p = rest := by
  rw [List.dropWhile_append_of_pos hRun]
  cases rest with
  | nil => rfl
  | cons c r => simp [hRest c rfl]

/-- Every text is a run of characters of one sort and a rest that does not go on with it. -/
theorem exists_run (p : Char → Bool) (cs : List Char) :
    ∃ run rest, cs = run ++ rest ∧ (∀ c ∈ run, p c = true) ∧ ∀ c ∈ rest.head?, p c = false := by
  refine ⟨cs.takeWhile p, cs.dropWhile p, List.takeWhile_append_dropWhile.symm, ?_, ?_⟩
  · exact List.all_eq_true.mp List.all_takeWhile
  · intro c hc
    have hHead := List.head?_dropWhile_not p cs
    rw [Option.mem_def.mp hc] at hHead
    exact hHead

/-! ## One class at a time -/

theorem word?_run {letters digits : List Char} (hLetters : AreLetters letters)
    (hDigits : AreDigits digits) (hRest : ∀ c ∈ rest.head?, Decimal.isDigit c = false)
    (hWord : digits = [] → ∀ c ∈ rest.head?, isLetter c = false) :
    word? (letters ++ (digits ++ rest)) =
      if letters.isEmpty then none
      else if digits.isEmpty then some (.identifier, letters)
      else some (.cell, letters ++ digits) := by
  have hHead : ∀ c ∈ (digits ++ rest).head?, isLetter c = false := by
    intro c hc
    cases digits with
    | nil => exact hWord rfl c hc
    | cons d ds =>
      cases hc
      exact isLetter_of_isDigit (hDigits c List.mem_cons_self)
  simp only [word?, takeWhile_run hLetters hHead, dropWhile_run hLetters hHead,
    takeWhile_run hDigits hRest]

theorem word?_eq_some (h : word? cs = some (kind, l)) :
    Spells kind l ∧ ∃ rest, cs = l ++ rest ∧ EndsBefore kind l rest := by
  obtain ⟨letters, after, rfl, hLetters, hAfter⟩ := exists_run isLetter cs
  obtain ⟨digits, rest, rfl, hDigits, hRest⟩ := exists_run Decimal.isDigit after
  have hWord : digits = [] → ∀ c ∈ rest.head?, isLetter c = false := by
    rintro rfl
    exact hAfter
  rw [word?_run hLetters hDigits hRest hWord] at h
  split at h
  · cases h
  · rename_i hNonempty
    have hNonempty : letters ≠ [] := mt List.isEmpty_iff.mpr hNonempty
    split at h
    · rename_i hEmpty
      cases h
      cases List.isEmpty_iff.mp hEmpty
      refine ⟨⟨hNonempty, hLetters⟩, rest, rfl, ?_⟩
      rintro c hc (hLetter | hDigit)
      · rw [hAfter c hc] at hLetter
        cases hLetter
      · rw [hRest c hc] at hDigit
        cases hDigit
    · rename_i hDigitsNonempty
      cases h
      have hDigitsNonempty : digits ≠ [] := mt List.isEmpty_iff.mpr hDigitsNonempty
      refine ⟨⟨letters, digits, hNonempty, hDigitsNonempty, hLetters, hDigits, rfl⟩, rest,
        (List.append_assoc letters digits rest).symm, ?_⟩
      intro c hc (hDigit : Decimal.isDigit c = true)
      rw [hRest c hc] at hDigit
      cases hDigit

theorem word?_none (h : isLetter c = false) : word? (c :: r) = none := by
  simp [word?, h]

theorem not_mem_of_areDigits {ds : List Char} (h : AreDigits ds) : '.' ∉ ds := by
  intro hPoint
  have := h '.' hPoint
  revert this
  decide

/-- A point ends a run of digits. -/
theorem isDigit_point : ∀ {ds : List Char}, ∀ c ∈ ('.' :: ds).head?, Decimal.isDigit c = false := by
  rintro ds c ⟨⟩
  rfl

theorem number?_pointed {digits decimals : List Char} (hDigits : AreDigits digits)
    (hDecimals : AreDigits decimals) (hRest : ∀ c ∈ rest.head?, Decimal.isDigit c = false) :
    number? (digits ++ '.' :: (decimals ++ rest)) =
      if digits.isEmpty && decimals.isEmpty then none
      else some (.number, digits ++ '.' :: decimals) := by
  simp only [number?, takeWhile_run hDigits isDigit_point, dropWhile_run hDigits isDigit_point,
    takeWhile_run hDecimals hRest]

theorem number?_whole {digits : List Char} (hDigits : AreDigits digits)
    (hRest : ∀ c ∈ rest.head?, Decimal.isDigit c = false ∧ c ≠ '.') :
    number? (digits ++ rest) = if digits.isEmpty then none else some (.number, digits) := by
  have hHead : ∀ c ∈ rest.head?, Decimal.isDigit c = false := fun c hc => (hRest c hc).1
  simp only [number?, takeWhile_run hDigits hHead, dropWhile_run hDigits hHead]
  cases rest with
  | nil => rfl
  | cons c r =>
    split
    · rename_i heq
      cases heq
      exact absurd rfl (hRest _ rfl).2
    · rfl

theorem not_isNumeral_two_points {ds es fs : List Char} :
    ¬ IsNumeral (ds ++ '.' :: es ++ '.' :: fs) := by
  intro h
  have hCount : ∀ {l : List Char}, IsNumeral l → l.count '.' ≤ 1 := by
    intro l h
    cases h with
    | whole _ h => simp [List.count_eq_zero.mpr (not_mem_of_areDigits h)]
    | pointed _ hDigits hDecimals =>
      simp [List.count_eq_zero.mpr (not_mem_of_areDigits hDigits),
        List.count_eq_zero.mpr (not_mem_of_areDigits hDecimals)]
  have hTwo := hCount h
  simp only [List.count_append, List.count_cons_self] at hTwo
  omega

theorem number?_eq_some (h : number? cs = some (kind, l)) :
    Spells kind l ∧ ∃ rest, cs = l ++ rest ∧ EndsBefore kind l rest := by
  obtain ⟨digits, after, rfl, hDigits, hAfter⟩ := exists_run Decimal.isDigit cs
  by_cases hPoint : ∃ r, after = '.' :: r
  · obtain ⟨r, rfl⟩ := hPoint
    obtain ⟨decimals, rest, rfl, hDecimals, hRest⟩ := exists_run Decimal.isDigit r
    rw [number?_pointed hDigits hDecimals hRest] at h
    split at h
    · cases h
    · rename_i hNonempty
      cases h
      rw [Bool.and_eq_true, List.isEmpty_iff, List.isEmpty_iff,
        Decidable.not_and_iff_not_or_not] at hNonempty
      refine ⟨.pointed hNonempty hDigits hDecimals, rest, by simp, ?_⟩
      intro c hc (hContinues : IsNumeral (digits ++ '.' :: decimals ++ [c]))
      rcases hContinues.digit_or_point c (by simp) with hDigit | rfl
      · rw [hRest c hc] at hDigit
        cases hDigit
      · exact not_isNumeral_two_points hContinues
  · have hRest : ∀ c ∈ after.head?, Decimal.isDigit c = false ∧ c ≠ '.' := by
      intro c hc
      refine ⟨hAfter c hc, ?_⟩
      rintro rfl
      obtain ⟨r, rfl⟩ := List.head?_eq_some_iff.mp hc
      exact hPoint ⟨r, rfl⟩
    rw [number?_whole hDigits hRest] at h
    split at h
    · cases h
    · rename_i hNonempty
      cases h
      refine ⟨.whole (mt List.isEmpty_iff.mpr hNonempty) hDigits, after, rfl, ?_⟩
      intro c hc (hContinues : IsNumeral (l ++ [c]))
      rcases hContinues.digit_or_point c (by simp) with hDigit | hPoint
      · rw [(hRest c hc).1] at hDigit
        cases hDigit
      · exact (hRest c hc).2 hPoint

theorem AreDigits.append_singleton {ds : List Char} (h : AreDigits ds)
    (hc : Decimal.isDigit c = true) : AreDigits (ds ++ [c]) := by
  intro d hd
  rcases List.mem_append.mp hd with hd | hd
  · exact h d hd
  · rw [List.mem_singleton.mp hd, hc]

theorem number?_of_spells (h : IsNumeral l) (hRest : EndsBefore .number l rest) :
    number? (l ++ rest) = some (.number, l) := by
  cases h with
  | whole hNonempty hDigits =>
    have hEnd : ∀ c ∈ rest.head?, Decimal.isDigit c = false ∧ c ≠ '.' := by
      intro c hc
      constructor
      · rw [Bool.eq_false_iff]
        intro hDigit
        exact hRest c hc (.whole (by simp) (hDigits.append_singleton hDigit))
      · rintro rfl
        exact hRest '.' hc (.pointed (.inl hNonempty) hDigits nofun)
    rw [number?_whole hDigits hEnd, if_neg (mt List.isEmpty_iff.mp hNonempty)]
  | @pointed digits decimals hNonempty hDigits hDecimals =>
    have hEnd : ∀ c ∈ rest.head?, Decimal.isDigit c = false := by
      intro c hc
      rw [Bool.eq_false_iff]
      intro hDigit
      have hNumeral : IsNumeral (digits ++ '.' :: (decimals ++ [c])) :=
        .pointed (.inr (by simp)) hDigits (hDecimals.append_singleton hDigit)
      apply hRest c hc
      simpa [Continues] using hNumeral
    have hSome : ¬ (digits.isEmpty && decimals.isEmpty) = true := by
      rw [Bool.and_eq_true, List.isEmpty_iff, List.isEmpty_iff, Decidable.not_and_iff_not_or_not]
      exact hNonempty
    have hText : digits ++ '.' :: decimals ++ rest = digits ++ '.' :: (decimals ++ rest) := by simp
    rw [hText, number?_pointed hDigits hDecimals hEnd, if_neg hSome]

theorem number?_none (hDigit : Decimal.isDigit c = false) (hPoint : c ≠ '.') :
    number? (c :: r) = none := by
  have hRest : ∀ d ∈ (c :: r).head?, Decimal.isDigit d = false ∧ d ≠ '.' := by
    rintro d ⟨⟩
    exact ⟨hDigit, hPoint⟩
  have hNoDigits : AreDigits [] := nofun
  exact number?_whole hNoDigits hRest

theorem text?_eq_some (h : text? cs = some (kind, l)) :
    Spells kind l ∧ ∃ rest, cs = l ++ rest ∧ EndsBefore kind l rest := by
  unfold text? at h
  split at h
  · rename_i q r
    split at h
    · rename_i hQuote
      obtain ⟨inside, after, rfl, hInside, hAfter⟩ := exists_run (· != q) r
      rw [takeWhile_run hInside hAfter, dropWhile_run hInside hAfter] at h
      cases after with
      | nil => cases h
      | cons c rest =>
        cases h
        obtain rfl : c = q := by simpa using hAfter c rfl
        refine ⟨⟨c, inside, hQuote, ?_, rfl⟩, rest, by simp, nofun⟩
        intro hMem
        simpa using hInside c hMem
    · cases h
  · cases h

theorem text?_of_spells {q : Char} {inside : List Char} (hQuote : isQuote q = true)
    (hInside : q ∉ inside) :
    text? (q :: (inside ++ [q]) ++ rest) = some (.text, q :: (inside ++ [q])) := by
  have hRun : ∀ c ∈ inside, (c != q) = true := by
    intro c hc
    rw [bne_iff_ne]
    rintro rfl
    exact hInside hc
  have hEnd : ∀ c ∈ (q :: rest).head?, (c != q) = false := by
    rintro c ⟨⟩
    simp
  have hOpening : (q == '"' || q == '\'') = true := hQuote
  have hText : q :: (inside ++ [q]) ++ rest = q :: (inside ++ q :: rest) := by simp
  rw [hText]
  simp only [text?, hOpening, if_true, takeWhile_run hRun hEnd, dropWhile_run hRun hEnd]
  rfl

theorem text?_none (h : isQuote c = false) : text? (c :: r) = none := by
  have hOpening : ¬ (c == '"' || c == '\'') = true := by
    rw [Bool.not_eq_true]
    exact h
  simp only [text?, if_neg hOpening]

theorem symbol?_eq_some (h : symbol? cs = some (kind, l)) :
    Spells kind l ∧ ∃ rest, cs = l ++ rest ∧ EndsBefore kind l rest := by
  unfold symbol? at h
  split at h
  · rename_i c r
    split at h
    · rename_i hc
      cases h
      exact ⟨⟨c, hc, rfl⟩, r, rfl, nofun⟩
    · split at h <;> cases h
      rename_i hc
      exact ⟨⟨c, hc, rfl⟩, r, rfl, nofun⟩
  · cases h

/-! ## All classes -/

theorem isOperator_of_isPunctuation (h : isPunctuation c = true) : isOperator c = false := by
  simp only [isPunctuation, Bool.or_eq_true, beq_iff_eq] at h
  rcases h with ((rfl | rfl) | rfl) | rfl <;> decide

theorem lexeme?_of_not_isInner (h : isInner c = false) :
    lexeme? (c :: r) = (text? (c :: r)).or (symbol? (c :: r)) := by
  simp only [isInner, Bool.or_eq_false_iff, beq_eq_false_iff_ne] at h
  obtain ⟨⟨hLetter, hDigit⟩, hPoint⟩ := h
  simp [lexeme?, word?_none hLetter, number?_none hDigit hPoint]

theorem lexeme?_of_spells (h : Spells kind l) (hRest : EndsBefore kind l rest) :
    lexeme? (l ++ rest) = some (kind, l) := by
  cases kind with
  | cell =>
    obtain ⟨letters, digits, hNonempty, hDigitsNonempty, hLetters, hDigits, rfl⟩ := h
    have hEnd : ∀ c ∈ rest.head?, Decimal.isDigit c = false := fun c hc =>
      Bool.eq_false_iff.mpr (hRest c hc)
    have hWord := word?_run hLetters hDigits hEnd fun hEmpty => absurd hEmpty hDigitsNonempty
    rw [if_neg (mt List.isEmpty_iff.mp hNonempty),
      if_neg (mt List.isEmpty_iff.mp hDigitsNonempty)] at hWord
    simp [lexeme?, hWord]
  | identifier =>
    obtain ⟨hNonempty, hLetters⟩ := h
    have hEnd : ∀ c ∈ rest.head?, isLetter c = false ∧ Decimal.isDigit c = false := by
      intro c hc
      have hStops := hRest c hc
      simp only [Continues, not_or, Bool.not_eq_true] at hStops
      exact hStops
    have hNoDigits : AreDigits [] := List.forall_mem_nil _
    have hWord := word?_run hLetters hNoDigits (fun c hc => (hEnd c hc).2)
      fun _ c hc => (hEnd c hc).1
    rw [if_neg (mt List.isEmpty_iff.mp hNonempty)] at hWord
    simp only [List.nil_append, List.isEmpty_nil, if_true] at hWord
    simp [lexeme?, hWord]
  | number =>
    have hNumber := number?_of_spells h hRest
    obtain ⟨c, r, rfl, hc⟩ := Spells.opens h
    have hLetter : isLetter c = false := by
      rw [Bool.eq_false_iff]
      intro hLetter
      have hDigit := isDigit_of_isLetter hLetter
      simp only [opens, hDigit, Bool.false_or, beq_iff_eq] at hc
      subst hc
      revert hLetter
      decide
    rw [List.cons_append] at hNumber ⊢
    simp [lexeme?, word?_none hLetter, hNumber]
  | text =>
    obtain ⟨q, inside, hQuote, hInside, rfl⟩ := h
    have hText : text? (q :: (inside ++ [q]) ++ rest) = some (.text, q :: (inside ++ [q])) :=
      text?_of_spells hQuote hInside
    rw [List.cons_append] at hText ⊢
    rw [lexeme?_of_not_isInner (isInner_of_isQuote hQuote), hText, Option.some_or]
  | operator =>
    obtain ⟨c, hc, rfl⟩ := h
    have hSymbol : isSymbol c = true := by simp [isSymbol, hc]
    simp [lexeme?_of_not_isInner (isInner_of_isSymbol hSymbol),
      text?_none (isQuote_of_isSymbol hSymbol), symbol?, hc]
  | punctuation =>
    obtain ⟨c, hc, rfl⟩ := h
    have hSymbol : isSymbol c = true := by simp [isSymbol, hc]
    simp [lexeme?_of_not_isInner (isInner_of_isSymbol hSymbol),
      text?_none (isQuote_of_isSymbol hSymbol), symbol?, isOperator_of_isPunctuation hc, hc]

/-- The lexeme at the front of a text belongs to a class, and what follows does not continue it. -/
theorem lexeme?_eq_some :
    lexeme? cs = some (kind, l) ↔
      Spells kind l ∧ ∃ rest, cs = l ++ rest ∧ EndsBefore kind l rest := by
  constructor
  · intro h
    simp only [lexeme?, Option.orElse_eq_orElse, Option.orElse_eq_or, Option.or_eq_some_iff] at h
    rcases h with h | ⟨-, h | ⟨-, h | ⟨-, h⟩⟩⟩
    · exact word?_eq_some h
    · exact number?_eq_some h
    · exact text?_eq_some h
    · exact symbol?_eq_some h
  · rintro ⟨hSpells, rest, rfl, hRest⟩
    exact lexeme?_of_spells hSpells hRest

theorem Spells.append_singleton (h : Spells kind l) (hc : Continues kind l c) :
    ∃ kind', Spells kind' (l ++ [c]) := by
  cases kind with
  | cell =>
    obtain ⟨letters, digits, hNonempty, -, hLetters, hDigits, rfl⟩ := h
    exact ⟨.cell, letters, digits ++ [c], hNonempty, by simp, hLetters,
      hDigits.append_singleton hc, List.append_assoc letters digits [c]⟩
  | identifier =>
    obtain ⟨hNonempty, hLetters⟩ := h
    rcases hc with hLetter | hDigit
    · refine ⟨.identifier, by simp, fun d hd => ?_⟩
      rcases List.mem_append.mp hd with hd | hd
      · exact hLetters d hd
      · rw [List.mem_singleton.mp hd, hLetter]
    · refine ⟨.cell, l, [c], hNonempty, by simp, hLetters, ?_, rfl⟩
      intro d hd
      rw [List.mem_singleton.mp hd, hDigit]
  | number => exact ⟨.number, hc⟩
  | text | operator | punctuation => exact hc.elim

/-- Where a class matches at all, a lexeme is found: the longest one that goes on with the match. -/
theorem Spells.lexeme?_ne_none (h : Spells kind l) (rest : List Char) :
    lexeme? (l ++ rest) ≠ none := by
  -- the match takes in one character after the other, and may change its class on the way
  induction rest generalizing kind l with
  | nil =>
    rw [lexeme?_of_spells h endsBefore_nil]
    exact Option.some_ne_none _
  | cons c rest ih =>
    by_cases hc : Continues kind l c
    · obtain ⟨kind', hLonger⟩ := h.append_singleton hc
      simpa using ih hLonger
    · have hEnds : EndsBefore kind l (c :: rest) := by
        rintro d ⟨⟩
        exact hc
      rw [lexeme?_of_spells h hEnds]
      exact Option.some_ne_none _

end Spreadsheet.Lexer
