import Spreadsheet.Proofs.Formula.Classes

/-!
# The segments of a formula

`Lexes` reads a text from left to right: spaces are passed over, and a lexeme that ends where it is
cut becomes a token. Every text is read to its end or to a character where no lexeme starts, and the
scanner does the same. So the tokens are pieces of the text with nothing but spaces around them, no
word is cut short, and the pieces lex alike when they are set apart by spaces.
-/

set_option autoImplicit false

namespace Spreadsheet

namespace Lexer

/-- From a position on, the text is read as the tokens up to another position, where a rest is
left. -/
inductive Lexes : Nat → List Char → List Token → Nat → List Char → Prop
  | done {p : Nat} {cs : List Char} : Lexes p cs [] p cs
  | space {p q : Nat} {c : Char} {cs rest : List Char} {ts : List Token} (hc : isSpace c = true)
      (h : Lexes (p + 1) cs ts q rest) : Lexes p (c :: cs) ts q rest
  | lexeme {p q : Nat} {kind : TokenKind} {l cs rest : List Char} {ts : List Token}
      (hSpells : Spells kind l) (hEnds : EndsBefore kind l cs)
      (h : Lexes (p + l.length) cs ts q rest) :
      Lexes p (l ++ cs) (⟨kind, String.ofList l, p⟩ :: ts) q rest

/-- No token starts here, and no space. -/
def IsStuck (cs : List Char) : Prop :=
  ∃ c r, cs = c :: r ∧ isSpace c = false ∧ lexeme? cs = none

variable {p q r : Nat} {kind : TokenKind} {c : Char} {cs mid rest l : List Char}
  {ts us : List Token}

theorem Lexes.trans (h : Lexes p cs ts q mid) (hRest : Lexes q mid us r rest) :
    Lexes p cs (ts ++ us) r rest := by
  induction h with
  | done => exact hRest
  | space hc _ ih => exact .space hc (ih hRest)
  | lexeme hSpells hEnds _ ih => exact .lexeme hSpells hEnds (ih hRest)

theorem Lexes.spaces {gap : List Char} (hGap : ∀ c ∈ gap, isSpace c = true)
    (h : Lexes (p + gap.length) cs ts q rest) : Lexes p (gap ++ cs) ts q rest := by
  induction gap generalizing p with
  | nil => exact h
  | cons c gap ih =>
    apply Lexes.space (hGap c List.mem_cons_self)
    apply ih fun d hd => hGap d (List.mem_cons_of_mem c hd)
    rwa [List.length_cons, Nat.add_comm gap.length, ← Nat.add_assoc] at h

theorem Lexes.exists_before (h : Lexes p cs ts q rest) :
    ∃ before, cs = before ++ rest ∧ q = p + before.length := by
  induction h with
  | done => exact ⟨[], rfl, rfl⟩
  | @space p q c cs rest ts _ _ ih =>
    obtain ⟨before, rfl, rfl⟩ := ih
    exact ⟨c :: before, rfl, by simp only [List.length_cons]; omega⟩
  | @lexeme p q kind l cs rest ts _ _ _ ih =>
    obtain ⟨before, rfl, rfl⟩ := ih
    exact ⟨l ++ before, by simp, by simp only [List.length_append]; omega⟩

theorem EndsBefore.of_append {before : List Char} (h : EndsBefore kind l (before ++ rest)) :
    EndsBefore kind l before := by
  intro c hc
  apply h
  rw [List.head?_append, Option.mem_def.mp hc]
  rfl

/-- What has been read does not depend on the rest. -/
theorem Lexes.cut {before : List Char} (h : Lexes p (before ++ rest) ts q rest) :
    Lexes p before ts q [] := by
  generalize hcs : before ++ rest = cs at h
  induction h generalizing before with
  | done =>
    obtain rfl : before = [] := by simpa using hcs
    exact .done
  | @space p q c cs rest ts hc h ih =>
    obtain ⟨before', rfl, -⟩ := h.exists_before
    rw [← List.cons_append, List.append_cancel_right_eq] at hcs
    subst hcs
    exact .space hc (ih rfl)
  | @lexeme p q kind l cs rest ts hSpells hEnds h ih =>
    obtain ⟨before', rfl, -⟩ := h.exists_before
    rw [← List.append_assoc, List.append_cancel_right_eq] at hcs
    subst hcs
    exact .lexeme hSpells hEnds.of_append (ih rfl)

/-! ## The scanner -/

theorem scan_space (hc : isSpace c = true) : scan p (c :: cs) = scan (p + 1) cs := by
  rw [scan, if_pos hc]

theorem scan_lexeme (h : lexeme? cs = some (kind, l)) :
    scan p cs = match scan (p + l.length) (cs.drop l.length) with
      | .error fault => .error fault
      | .ok ts => .ok (⟨kind, String.ofList l, p⟩ :: ts) := by
  obtain ⟨hSpells, rest, rfl, -⟩ := lexeme?_eq_some.mp h
  obtain ⟨c, r, rfl, hOpens⟩ := hSpells.opens
  rw [List.cons_append] at h ⊢
  rw [scan, if_neg (Bool.eq_false_iff.mp (isSpace_of_opens hOpens))]
  split
  · rename_i hNone
    rw [h] at hNone
    cases hNone
  · rename_i hSome
    rw [h] at hSome
    cases hSome
    rfl

theorem scan_of_lexes (h : Lexes p cs ts q rest) :
    scan p cs = (scan q rest).map (ts ++ ·) := by
  induction h with
  | @done p cs => cases scan p cs <;> rfl
  | space hc _ ih => rw [scan_space hc, ih]
  | @lexeme p q kind l cs rest ts hSpells hEnds _ ih =>
    rw [scan_lexeme (lexeme?_of_spells hSpells hEnds), List.drop_left, ih]
    cases scan q rest <;> rfl

theorem scan_of_isStuck (h : IsStuck (c :: cs)) :
    scan p (c :: cs) = .error (.unexpectedCharacter c p) := by
  obtain ⟨c, r, ⟨⟩, hc, hNone⟩ := h
  rw [scan, if_neg (Bool.eq_false_iff.mp hc)]
  split
  · rfl
  · rename_i hSome
    rw [hNone] at hSome
    cases hSome

/-- Every text is read to its end, or to where nothing starts. -/
theorem exists_lexes (p : Nat) (cs : List Char) :
    ∃ ts q rest, Lexes p cs ts q rest ∧ (rest = [] ∨ IsStuck rest) := by
  fun_induction scan p cs with
  | case1 p => exact ⟨[], p, [], .done, .inl rfl⟩
  | case2 p c cs hc ih =>
    obtain ⟨ts, q, rest, h, hEnd⟩ := ih
    exact ⟨ts, q, rest, .space hc h, hEnd⟩
  | case3 p c cs hc hNone =>
    exact ⟨[], p, c :: cs, .done, .inr ⟨c, cs, rfl, Bool.eq_false_iff.mpr hc, hNone⟩⟩
  | case4 p c cs hc kind l hSome _ _ ih | case5 p c cs hc kind l hSome _ _ ih =>
    obtain ⟨hSpells, after, hText, hEnds⟩ := lexeme?_eq_some.mp hSome
    rw [hText, List.drop_left] at ih
    obtain ⟨ts, q, rest, h, hEnd⟩ := ih
    rw [hText]
    exact ⟨_, q, rest, .lexeme hSpells hEnds h, hEnd⟩

theorem scan_eq_ok : scan p cs = .ok ts ↔ ∃ q, Lexes p cs ts q [] := by
  constructor
  · intro hScan
    obtain ⟨us, q, rest, h, rfl | hStuck⟩ := exists_lexes p cs
    · rw [scan_of_lexes h, scan] at hScan
      cases hScan
      exact ⟨q, by simpa using h⟩
    · obtain ⟨c, r, rfl, -⟩ := id hStuck
      rw [scan_of_lexes h, scan_of_isStuck hStuck] at hScan
      cases hScan
  · rintro ⟨q, h⟩
    rw [scan_of_lexes h, scan]
    simp [Except.map]

theorem scan_eq_error {fault : SyntaxFault} :
    scan p cs = .error fault ↔ ∃ ts q c r, Lexes p cs ts q (c :: r) ∧ IsStuck (c :: r) ∧
      fault = .unexpectedCharacter c q := by
  constructor
  · intro hScan
    obtain ⟨ts, q, rest, h, rfl | hStuck⟩ := exists_lexes p cs
    · rw [scan_of_lexes h, scan] at hScan
      cases hScan
    · obtain ⟨c, r, rfl, -⟩ := id hStuck
      rw [scan_of_lexes h, scan_of_isStuck hStuck] at hScan
      cases hScan
      exact ⟨ts, q, c, r, h, hStuck, rfl⟩
  · rintro ⟨ts, q, c, r, h, hStuck, rfl⟩
    rw [scan_of_lexes h, scan_of_isStuck hStuck]
    rfl

end Lexer

/-! ## Segments -/

def Token.stop (t : Token) : Nat := t.position + t.text.toList.length

/-- The tokens are pieces of the text. -/
structure Segments (source : List Char) (ts : List Token) : Prop where
  increasing : ts.Pairwise fun t u => t.position < u.position
  apart : ts.Pairwise fun t u => t.stop ≤ u.position
  text : ∀ t ∈ ts, (source.drop t.position).take t.text.toList.length = t.text.toList
  spells : ∀ t ∈ ts, Lexer.Spells t.kind t.text.toList
  ends : ∀ t ∈ ts, ∀ c, source[t.stop]? = some c → ¬ Lexer.Continues t.kind t.text.toList c
  space : ∀ i c, source[i]? = some c → (∀ t ∈ ts, ¬ (t.position ≤ i ∧ i < t.stop)) →
    Lexer.isSpace c = true

namespace Lexer

variable {p q : Nat} {cs rest source : List Char} {ts : List Token} {t : Token}

theorem Lexes.le_position (h : Lexes p cs ts q rest) (ht : t ∈ ts) : p ≤ t.position := by
  induction h with
  | done => cases ht
  | space _ _ ih => exact (Nat.le_succ _).trans (ih ht)
  | lexeme _ _ _ ih =>
    rcases List.mem_cons.mp ht with rfl | ht
    · exact Nat.le_refl _
    · exact (Nat.le_add_right _ _).trans (ih ht)

theorem Lexes.pairwise (h : Lexes p cs ts q rest) :
    ts.Pairwise fun t u => t.stop ≤ u.position := by
  induction h with
  | done => exact .nil
  | space _ _ ih => exact ih
  | lexeme _ _ h ih =>
    refine .cons (fun u hu => ?_) ih
    simpa [Token.stop] using h.le_position hu

/-- One token is a piece of the text that belongs to its class and is not cut short. -/
structure IsPiece (source : List Char) (t : Token) : Prop where
  text : (source.drop t.position).take t.text.toList.length = t.text.toList
  spells : Spells t.kind t.text.toList
  ends : ∀ c, source[t.stop]? = some c → ¬ Continues t.kind t.text.toList c

theorem Lexes.isPiece (h : Lexes p cs ts q rest) (hSource : source.drop p = cs) (ht : t ∈ ts) :
    IsPiece source t := by
  induction h with
  | done => cases ht
  | space _ _ ih =>
    apply ih _ ht
    rw [← List.tail_drop, hSource, List.tail_cons]
  | @lexeme p q kind l cs rest ts hSpells hEnds _ ih =>
    have hRest : source.drop (p + l.length) = cs := by
      rw [← List.drop_drop, hSource, List.drop_left]
    rcases List.mem_cons.mp ht with rfl | ht
    · refine ⟨?_, ?_, ?_⟩
      · simp [hSource]
      · simpa using hSpells
      · intro c hc
        simp only [Token.stop, String.toList_ofList] at hc ⊢
        apply hEnds
        rw [Option.mem_def, ← hRest, List.head?_drop, hc]
    · exact ih hRest ht

theorem Lexes.space_of_uncovered (h : Lexes p cs ts q []) (hSource : source.drop p = cs) {i : Nat}
    (hi : p ≤ i) {c : Char} (hc : source[i]? = some c)
    (hFree : ∀ t ∈ ts, ¬ (t.position ≤ i ∧ i < t.stop)) : isSpace c = true := by
  generalize hRest : [] = rest at h
  induction h with
  | done =>
    subst hRest
    rw [List.drop_eq_nil_iff] at hSource
    rw [List.getElem?_eq_none (hSource.trans hi)] at hc
    cases hc
  | @space p q d cs rest ts hd _ ih =>
    rcases Nat.eq_or_lt_of_le hi with rfl | hLater
    · have hHead : source[p]? = some d := by rw [← List.head?_drop, hSource, List.head?_cons]
      rw [hHead] at hc
      cases hc
      exact hd
    · apply ih _ hLater hFree hRest
      rw [← List.tail_drop, hSource, List.tail_cons]
  | @lexeme p q kind l cs rest ts _ _ _ ih =>
    have hNot := hFree _ List.mem_cons_self
    simp only [Token.stop, String.toList_ofList, not_and, not_lt] at hNot
    apply ih _ (hNot hi) (fun t ht => hFree t (List.mem_cons_of_mem _ ht)) hRest
    rw [← List.drop_drop, hSource, List.drop_left]

theorem Lexes.segments (h : Lexes 0 source ts q []) : Segments source ts := by
  have hPiece : ∀ t ∈ ts, IsPiece source t := fun t ht => h.isPiece (List.drop_zero) ht
  refine ⟨?_, h.pairwise, fun t ht => (hPiece t ht).text, fun t ht => (hPiece t ht).spells,
    fun t ht => (hPiece t ht).ends, ?_⟩
  · refine h.pairwise.imp_of_mem fun {t u} ht _ hApart => ?_
    have hLength := List.length_pos_iff.mpr (hPiece t ht).spells.ne_nil
    unfold Token.stop at hApart
    omega
  · intro i c hc hFree
    exact h.space_of_uncovered List.drop_zero (Nat.zero_le i) hc hFree

/-- The texts of the tokens in order, set apart by spaces. -/
inductive Joins : List Token → List Char → Prop
  | nil : Joins [] []
  | single (t : Token) : Joins [t] t.text.toList
  | cons (t : Token) {u : Token} {ts : List Token} {gap cs : List Char} (hNonempty : gap ≠ [])
      (hGap : ∀ c ∈ gap, isSpace c = true) (h : Joins (u :: ts) cs) :
      Joins (t :: u :: ts) (t.text.toList ++ (gap ++ cs))

theorem Joins.lexes (h : Joins ts cs) (hSpells : ∀ t ∈ ts, Spells t.kind t.text.toList) (p : Nat) :
    ∃ us q, Lexes p cs us q [] ∧
      us.map (fun t => (t.kind, t.text)) = ts.map fun t => (t.kind, t.text) := by
  induction h generalizing p with
  | nil => exact ⟨[], p, .done, rfl⟩
  | single t =>
    have hLexes := Lexes.lexeme (p := p) (hSpells t List.mem_cons_self) endsBefore_nil .done
    rw [List.append_nil] at hLexes
    exact ⟨_, _, hLexes, by simp⟩
  | @cons t u ts gap cs hNonempty hGap _ ih =>
    obtain ⟨us, q, hRest, hSame⟩ := ih (fun t ht => hSpells t (List.mem_cons_of_mem _ ht))
      (p + t.text.toList.length + gap.length)
    have hEnds : EndsBefore t.kind t.text.toList (gap ++ cs) := by
      obtain ⟨c, gap, rfl⟩ := List.exists_cons_of_ne_nil hNonempty
      exact endsBefore_cons (isInner_of_isSpace (hGap c List.mem_cons_self))
    refine ⟨_, q, .lexeme (hSpells t List.mem_cons_self) hEnds (hRest.spaces hGap), ?_⟩
    simp [hSame]

end Lexer

open Lexer

/-- A text is cut into its tokens exactly, and refused at the first character where none starts. -/
theorem tokenize_segments (source : String) :
    (∀ tokens, tokenize source = .ok tokens → Segments source.toList tokens ∧
      ∀ joined : String, Joins tokens joined.toList → ∃ again, tokenize joined = .ok again ∧
        again.map (fun t => (t.kind, t.text)) = tokens.map fun t => (t.kind, t.text)) ∧
    (∀ fault, tokenize source = .error fault → ∃ c position,
      fault = .unexpectedCharacter c position ∧ position < source.length ∧
      source.toList[position]? = some c ∧
      (∃ before, tokenize (String.ofList (source.toList.take position)) = .ok before) ∧
      isSpace c = false ∧ ∀ kind l, Spells kind l → ¬ l <+: source.toList.drop position) := by
  constructor
  · intro tokens hTokens
    obtain ⟨q, h⟩ := scan_eq_ok.mp hTokens
    refine ⟨h.segments, fun joined hJoined => ?_⟩
    obtain ⟨again, q', hAgain, hSame⟩ := hJoined.lexes h.segments.spells 0
    exact ⟨again, scan_eq_ok.mpr ⟨q', hAgain⟩, hSame⟩
  · intro fault hFault
    obtain ⟨ts, q, c, r, h, hStuck, rfl⟩ := scan_eq_error.mp hFault
    obtain ⟨before, hSource, hq⟩ := h.exists_before
    rw [Nat.zero_add] at hq
    subst hq
    rw [hSource] at h ⊢
    obtain ⟨c', r', ⟨⟩, hSpace, hNone⟩ := hStuck
    refine ⟨c, before.length, rfl, ?_, by simp, ?_, hSpace, ?_⟩
    · rw [← String.length_toList, hSource]
      simp
    · refine ⟨ts, scan_eq_ok.mpr ⟨before.length, ?_⟩⟩
      simpa using h.cut
    · intro kind l hSpells hPrefix
      obtain ⟨rest, hRest⟩ := hPrefix
      rw [List.drop_left] at hRest
      rw [← hRest] at hNone
      exact hSpells.lexeme?_ne_none rest hNone

theorem tokenize_segments_touching :
    (∃ tokens, tokenize "SUMA1B.5.5" = .ok tokens ∧ Segments "SUMA1B.5.5".toList tokens ∧
      ∃ again, tokenize "SUMA1 B\t.5 \n.5" = .ok again ∧
        again.map (fun t => (t.kind, t.text)) = tokens.map fun t => (t.kind, t.text)) ∧
    ∃ c position, tokenize "A1+'x" = .error (.unexpectedCharacter c position) ∧
      (∃ before, tokenize (String.ofList ("A1+'x".toList.take position)) = .ok before) ∧
      ∀ kind l, Spells kind l → ¬ l <+: "A1+'x".toList.drop position := by
  constructor
  · let tokens : List Token := [⟨.cell, "SUMA1", 0⟩, ⟨.identifier, "B", 5⟩, ⟨.number, ".5", 6⟩,
      ⟨.number, ".5", 8⟩]
    have hTokens : tokenize "SUMA1B.5.5" = .ok tokens := by cbv
    have hJoins : Joins tokens "SUMA1 B\t.5 \n.5".toList := by
      have hLast := Joins.single ⟨.number, ".5", 8⟩
      have hBroken : ∀ c ∈ [' ', '\n'], isSpace c = true := by simp [isSpace]
      have hTab : ∀ c ∈ ['\t'], isSpace c = true := by simp [isSpace]
      have hBlank : ∀ c ∈ [' '], isSpace c = true := by simp [isSpace]
      have hThird := hLast.cons ⟨.number, ".5", 6⟩ (List.cons_ne_nil _ _) hBroken
      have hSecond := hThird.cons ⟨.identifier, "B", 5⟩ (List.cons_ne_nil _ _) hTab
      exact hSecond.cons ⟨.cell, "SUMA1", 0⟩ (List.cons_ne_nil _ _) hBlank
    obtain ⟨hSegments, hAgain⟩ := (tokenize_segments _).1 tokens hTokens
    exact ⟨tokens, hTokens, hSegments, hAgain _ hJoins⟩
  · have hFault : tokenize "A1+'x" = .error (.unexpectedCharacter '\'' 3) := by cbv
    obtain ⟨c, position, hSame, -, -, hBefore, -, hNone⟩ := (tokenize_segments _).2 _ hFault
    exact ⟨c, position, hSame ▸ hFault, hBefore, hNone⟩

end Spreadsheet
