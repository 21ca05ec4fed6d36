import Spreadsheet.Proofs.Formula.Rendering
import Spreadsheet.Proofs.Formula.Spelling
import Spreadsheet.Proofs.Text.Strip

/-!
# The equals sign before a formula

Blanks around a formula make no difference, and the equals sign before it may be left out. Behind
the equals sign no blanks are dropped any more: the scanner passes over its own spaces there, so any
other blank between the sign and the formula is a fault.
-/

set_option autoImplicit false

namespace Spreadsheet

open Lexer
open Text (AreBlank isBlank strip stripEnd)

/-! ## Reading at another position -/

namespace Lexer

variable {p q : Nat} {kind : TokenKind} {c : Char} {cs rest gap : List Char} {ts : List Token}

theorem Lexes.exists_at (h : Lexes p cs ts q rest) (p' : Nat) :
    ∃ us q', Lexes p' cs us q' rest ∧ wordTexts us = wordTexts ts := by
  induction h generalizing p' with
  | done => exact ⟨[], p', .done, rfl⟩
  | space hc _ ih =>
    obtain ⟨us, q', hLexes, hWords⟩ := ih (p' + 1)
    exact ⟨us, q', .space hc hLexes, hWords⟩
  | @lexeme p q kind l cs rest ts hSpells hEnds _ ih =>
    obtain ⟨us, q', hLexes, hWords⟩ := ih (p' + l.length)
    refine ⟨_, q', .lexeme hSpells hEnds hLexes, ?_⟩
    cases hWord : Token.isWord ⟨kind, String.ofList l, p⟩ with
    | true =>
      have hWord' : Token.isWord ⟨kind, String.ofList l, p'⟩ = true := hWord
      rw [wordTexts_word hWord, wordTexts_word hWord', hWords]
    | false =>
      have hWord' : Token.isWord ⟨kind, String.ofList l, p'⟩ = false := hWord
      rw [wordTexts_symbol hWord, wordTexts_symbol hWord', hWords]

theorem scan_wordTexts {us : List Token} {p' : Nat} (h : scan p cs = .ok ts)
    (h' : scan p' cs = .ok us) : wordTexts us = wordTexts ts := by
  obtain ⟨q, hLexes⟩ := scan_eq_ok.mp h
  obtain ⟨vs, q', hLexes', hWords⟩ := hLexes.exists_at p'
  rw [scan_eq_ok.mpr ⟨q', hLexes'⟩] at h'
  cases h'
  exact hWords

theorem isBlank_of_opens (h : opens kind c = true) : isBlank c = false := by
  have hEdge : isInner c = true ∨ isQuote c = true → isBlank c = false := fun h =>
    Formula.isBlank_of_isEdge (by rcases h with h | h <;> simp [Formula.isEdge, h])
  cases kind with
  | cell | identifier =>
    have hLetter : isLetter c = true := h
    exact hEdge (.inl (by simp [isInner, hLetter]))
  | number =>
    have hDigit : (Decimal.isDigit c || c == '.') = true := h
    exact hEdge (.inl (by rw [isInner, Bool.or_assoc, hDigit, Bool.or_true]))
  | text => exact hEdge (.inr h)
  | operator | punctuation =>
    simp only [opens, isOperator, isPunctuation, Bool.or_eq_true, beq_iff_eq] at h
    rcases h with ((rfl | rfl) | rfl) | rfl <;> rfl

theorem scan_gap (hGap : ∀ c ∈ gap, isSpace c = true) :
    scan p (gap ++ cs) = scan (p + gap.length) cs := by
  rw [scan_of_lexes (Lexes.spaces hGap .done)]
  cases scan (p + gap.length) cs <;> rfl

theorem isStuck_of_isBlank (hBlank : isBlank c = true) (hSpace : isSpace c = false)
    (cs : List Char) : IsStuck (c :: cs) := by
  refine ⟨c, cs, rfl, hSpace, ?_⟩
  by_contra hSome
  obtain ⟨⟨kind, l⟩, hLexeme⟩ := Option.ne_none_iff_exists'.mp hSome
  obtain ⟨hSpells, rest, hText, -⟩ := lexeme?_eq_some.mp hLexeme
  obtain ⟨d, r, rfl, hOpens⟩ := hSpells.opens
  rw [List.cons_append] at hText
  cases hText
  rw [isBlank_of_opens hOpens] at hBlank
  cases hBlank

end Lexer

namespace Formula

variable {f g : Formula} {fs gs : List Formula} {cs : List Char} {s : String}

mutual

theorem Respells.length_words : {f g : Formula} → Respells f g → g.words.length = f.words.length
  | _, _, .text _ | _, _, .number _ | _, _, .cell _ | _, _, .range _ _ => rfl
  | _, _, .negative h => by
    rw [words, words]
    exact h.length_words
  | _, _, .call _ hArguments => by
    rw [words, words, List.length_cons, List.length_cons, hArguments.length_words]
  | _, _, .binary hLeft hRight => by
    rw [words, words, List.length_append, List.length_append, hLeft.length_words,
      hRight.length_words]

theorem RespellsAll.length_words : {fs gs : List Formula} → RespellsAll fs gs →
    (wordsOfAll gs).length = (wordsOfAll fs).length
  | _, _, .nil => rfl
  | _, _, .cons h hRest => by
    rw [wordsOfAll, wordsOfAll, List.length_append, List.length_append, h.length_words,
      hRest.length_words]

end

mutual

/-- Spellings of one formula that agree in every word are the same. -/
theorem Respells.eq_of_words : {f g : Formula} → Respells f g → g.words = f.words → g = f
  | _, _, .text _, _ | _, _, .number _, _ => rfl
  | _, _, .cell _, hWords => by
    rw [words, words] at hWords
    rw [List.singleton_inj.mp hWords]
  | _, _, .range _ _, hWords => by
    simp only [words, List.cons.injEq, and_true] at hWords
    rw [hWords.1, hWords.2]
  | _, _, .negative h, hWords => by
    rw [words, words] at hWords
    rw [h.eq_of_words hWords]
  | _, _, .call _ hArguments, hWords => by
    rw [words, words] at hWords
    obtain ⟨rfl, hRest⟩ := List.cons_eq_cons.mp hWords
    rw [hArguments.eq_of_words hRest]
  | _, _, .binary hLeft hRight, hWords => by
    rw [words, words] at hWords
    obtain ⟨hFirst, hSecond⟩ := List.append_inj hWords hLeft.length_words
    rw [hLeft.eq_of_words hFirst, hRight.eq_of_words hSecond]

theorem RespellsAll.eq_of_words : {fs gs : List Formula} → RespellsAll fs gs →
    wordsOfAll gs = wordsOfAll fs → gs = fs
  | _, _, .nil, _ => rfl
  | _, _, .cons h hRest, hWords => by
    rw [wordsOfAll, wordsOfAll] at hWords
    obtain ⟨hFirst, hSecond⟩ := List.append_inj hWords h.length_words
    rw [h.eq_of_words hFirst, hRest.eq_of_words hSecond]

end

/-- A text is read alike at any position, up to the positions in the faults. -/
theorem scan_ofTokens_agrees (p p' : Nat) (cs : List Char) :
    Agrees SyntaxFault.SameKind Eq (scan p cs >>= ofTokens) (scan p' cs >>= ofTokens) := by
  have hScans : Agrees SyntaxFault.SameKind
      (fun ts us => Agrees SyntaxFault.SameKind Eq (ofTokens ts) (ofTokens us))
      (scan p cs) (scan p' cs) := by
    refine (scan_agrees (RespellsText.refl cs) p p').imp fun ts us hScan hScan' hTokens => ?_
    refine (ofTokens_agrees hTokens).imp fun f g hRead hRead' hSpelling => ?_
    -- the words are the same in both lists of tokens, so they are the same in both formulas
    have hWords : g.words = f.words := calc
      g.words = wordTexts us := words_of_ofTokens (scan_areLexed hScan') hRead'
      _ = wordTexts ts := scan_wordTexts hScan hScan'
      _ = f.words := (words_of_ofTokens (scan_areLexed hScan) hRead).symm
    exact (hSpelling.eq_of_words hWords).symm
  exact hScans.bind fun _ _ h => h

/-! ## The body of a text -/

theorem body_equals (s : String) : body ("=" ++ s) = String.ofList (stripEnd s.toList) := by
  have hText : ("=" ++ s).toList = '=' :: s.toList := String.toList_append
  rw [body, hText, Text.strip_cons rfl]
  rfl

theorem body_of_head (h : (strip s.toList).head? ≠ some '=') :
    body s = String.ofList (strip s.toList) := by
  rw [body]
  split
  · rename_i hEquals
    rw [hEquals] at h
    exact absurd rfl h
  · rfl

theorem parse_surrounded {before after : String} (hBefore : AreBlank before.toList)
    (hAfter : AreBlank after.toList) : parse (before ++ s ++ after) = parse s := by
  have hBody : body (before ++ s ++ after) = body s := by
    rw [body, String.toList_append, String.toList_append, Text.strip_surrounded hBefore hAfter,
      body]
  rw [parse, hBody, parse]

/-- Before the first character that is no blank only spaces of the scanner stand. -/
def LeadsWithSpaces (s : String) : Prop :=
  strip s.toList = [] ∨ ∀ c ∈ s.toList.takeWhile isBlank, isSpace c = true

theorem parse_equals_of_spaces (hEquals : (strip s.toList).head? ≠ some '=')
    (hSpaces : LeadsWithSpaces s) :
    Agrees SyntaxFault.SameKind Eq (parse ("=" ++ s)) (parse s) := by
  rw [parse, parse, tokenize, tokenize, body_equals, body_of_head hEquals, String.toList_ofList,
    String.toList_ofList]
  by_cases hBlank : strip s.toList = []
  · have hNothing : stripEnd s.toList = [] :=
      Text.stripEnd_append_blank (Text.strip_eq_nil.mp hBlank) []
    rw [hBlank, hNothing]
    exact scan_ofTokens_agrees 0 0 []
  · rw [Text.stripEnd_eq hBlank, scan_gap (hSpaces.resolve_left hBlank)]
    exact scan_ofTokens_agrees _ _ _

theorem parse_equals_of_blank (h : ¬ LeadsWithSpaces s) : ∃ gap c rest,
    s.toList = gap ++ c :: rest ∧ (∀ d ∈ gap, isSpace d = true) ∧ isBlank c = true ∧
      isSpace c = false ∧ parse ("=" ++ s) = .error (.unexpectedCharacter c gap.length) := by
  obtain ⟨hSome, hOther⟩ := not_or.mp h
  set blanks := s.toList.takeWhile isBlank with hBlanks
  have hFound : (blanks.find? fun c => !isSpace c).isSome := by
    simpa [List.find?_isSome] using hOther
  obtain ⟨c, hFirst⟩ := Option.isSome_iff_exists.mp hFound
  obtain ⟨hSpace, gap, between, hSplit, hGap⟩ := List.find?_eq_some_iff_append.mp hFirst
  rw [Bool.not_eq_true'] at hSpace
  simp only [Bool.not_not] at hGap
  have hBlank : isBlank c = true :=
    List.mem_takeWhile_imp (hSplit ▸ List.mem_append_right gap List.mem_cons_self)
  refine ⟨gap, c, between ++ s.toList.dropWhile isBlank, ?_, hGap, hBlank, hSpace, ?_⟩
  · rw [← List.cons_append, ← List.append_assoc, ← hSplit, hBlanks,
      List.takeWhile_append_dropWhile]
  · have hStuck := isStuck_of_isBlank hBlank hSpace (between ++ strip s.toList)
    rw [parse, tokenize, body_equals, String.toList_ofList, Text.stripEnd_eq hSome, ← hBlanks,
      hSplit, List.append_assoc, List.cons_append, scan_gap hGap, scan_of_isStuck hStuck,
      Nat.zero_add]
    rfl

/-- Blanks around a text make no difference to what it is read as. An equals sign before it makes
none as long as only spaces of the scanner come between; any other blank there is a fault, also
where the text alone is a formula. -/
theorem parse_equals (s : String) :
    (∀ before after : String, AreBlank before.toList → AreBlank after.toList →
      parse (before ++ s ++ after) = parse s) ∧
    ((strip s.toList).head? ≠ some '=' → LeadsWithSpaces s →
      Agrees SyntaxFault.SameKind Eq (parse ("=" ++ s)) (parse s)) ∧
    (¬ LeadsWithSpaces s → ∃ gap c rest, s.toList = gap ++ c :: rest ∧
      (∀ d ∈ gap, isSpace d = true) ∧ isBlank c = true ∧ isSpace c = false ∧
      parse ("=" ++ s) = .error (.unexpectedCharacter c gap.length)) :=
  ⟨fun _ _ hBefore hAfter => parse_surrounded hBefore hAfter, parse_equals_of_spaces,
    parse_equals_of_blank⟩

/-- With a tab behind the equals sign, and with an ideographic space at the end. -/
theorem parse_equals_spaced :
    ∃ f, parse " \t1 + A1\u3000" = .ok f ∧ parse "= \t1 + A1\u3000" = .ok f ∧
      parse "\u00a0 \t1 + A1\u3000\n" = .ok f := by
  obtain ⟨hAround, hEquals, -⟩ := parse_equals " \t1 + A1\u3000"
  have hRead : parse " \t1 + A1\u3000" = .ok (.binary .add (.number "1") (.cell "A1")) := by cbv
  have hFirst : " \t1 + A1\u3000".toList.takeWhile isBlank = [' ', '\t'] := by cbv
  have hSpaces : LeadsWithSpaces " \t1 + A1\u3000" := by
    refine .inr ?_
    rw [hFirst]
    exact List.forall_mem_cons.mpr ⟨rfl, List.forall_mem_singleton.mpr rfl⟩
  have hAgrees := hEquals (by decide) hSpaces
  have hBlanks := hAround "\u00a0" "\n" (List.forall_mem_singleton.mpr rfl)
    (List.forall_mem_singleton.mpr rfl)
  rw [hRead] at hAgrees
  cases hSign : parse ("=" ++ " \t1 + A1\u3000") with
  | error fault =>
    rw [hSign] at hAgrees
    cases hAgrees
  | ok g =>
    rw [hSign] at hAgrees
    cases hAgrees with
    | ok hSame => exact ⟨g, hSame ▸ hRead, hSign, hSame ▸ hBlanks.trans hRead⟩

/-- A no-break space before a formula is dropped, but not behind the equals sign. -/
theorem parse_equals_noBreakSpace :
    (strip "\u00a01".toList).head? ≠ some '=' ∧ parse "\u00a01" = .ok (.number "1") ∧
      parse "=\u00a01" = .error (.unexpectedCharacter '\u00a0' 0) := by
  exact ⟨by decide, by cbv, by cbv⟩

end Formula
end Spreadsheet
