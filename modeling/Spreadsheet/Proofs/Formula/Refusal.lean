import Spreadsheet.Proofs.Formula.Lookahead
import Spreadsheet.Proofs.Formula.Rendering

/-!
# Where a formula is refused

A text that is no formula is refused at the first token that cannot stand there. What comes before
it is the beginning of some formula: every step that is refused has come as far as a derivation that
tokens of the text's own kind could complete. With it no formula begins: the reader would have been
refused at the same token in any formula that begins so.
-/

set_option autoImplicit false

namespace Spreadsheet

open Lexer
open Number (Operation)

variable {t : Token} {ts us : List Token} {phrase : Phrase} {kind : TokenKind}

/-! ## Derivations of well spelled tokens -/

/-- The token is replaced by one that is spelled like its class, if it is not spelled so itself. -/
def Mends (t t' : Token) : Prop :=
  Spells t'.kind t'.text.toList ∧ (Spells t.kind t.text.toList → t' = t)

/-- A token of each class. -/
def sample : TokenKind → Token
  | .number => ⟨.number, "0", 0⟩
  | .text => ⟨.text, "''", 0⟩
  | .cell => ⟨.cell, "A0", 0⟩
  | .identifier => ⟨.identifier, "A", 0⟩
  | .operator => ⟨.operator, "+", 0⟩
  | .punctuation => ⟨.punctuation, ")", 0⟩

theorem sample_kind (kind : TokenKind) : (sample kind).kind = kind := by
  cases kind <;> rfl

theorem areDigits_zero : AreDigits ['0'] := List.forall_mem_singleton.mpr rfl

theorem areLetters_a : AreLetters ['A'] := List.forall_mem_singleton.mpr rfl

theorem spells_sample (kind : TokenKind) : Spells kind (sample kind).text.toList := by
  cases kind with
  | number => exact .whole (List.cons_ne_nil _ _) areDigits_zero
  | text => exact ⟨'\'', [], rfl, List.not_mem_nil, rfl⟩
  | cell =>
    exact ⟨['A'], ['0'], List.cons_ne_nil _ _, List.cons_ne_nil _ _, areLetters_a,
      areDigits_zero, rfl⟩
  | identifier => exact ⟨List.cons_ne_nil _ _, areLetters_a⟩
  | operator => exact ⟨'+', rfl, rfl⟩
  | punctuation => exact ⟨')', rfl, rfl⟩

theorem areClassed_sample (kind : TokenKind) : AreClassed [sample kind] := by
  refine List.forall_mem_singleton.mpr ?_
  rw [sample_kind]
  exact spells_sample kind

theorem exists_mends_kind (hKind : t.kind = kind) : ∃ t', t'.kind = kind ∧ Mends t t' := by
  by_cases hSpells : Spells t.kind t.text.toList
  · exact ⟨t, hKind, hSpells, fun _ => rfl⟩
  · exact ⟨sample kind, sample_kind kind, areClassed_sample kind _ List.mem_cons_self,
      fun h => absurd h hSpells⟩

theorem exists_mends_text {symbol : String} (hText : t.text = symbol) (hSymbol : symbol ∈ symbols) :
    ∃ t', t'.text = symbol ∧ Mends t t' := by
  by_cases hSpells : Spells t.kind t.text.toList
  · exact ⟨t, hText, hSpells, fun _ => rfl⟩
  · obtain ⟨c, hc, hList⟩ := exists_of_mem_symbols hSymbol
    rw [isSymbol, Bool.or_eq_true] at hc
    rcases hc with hc | hc
    · exact ⟨⟨.operator, symbol, 0⟩, rfl, ⟨c, hc, hList⟩, fun h => absurd h hSpells⟩
    · exact ⟨⟨.punctuation, symbol, 0⟩, rfl, ⟨c, hc, hList⟩, fun h => absurd h hSpells⟩

theorem Token.Operates.mends {o : Operation} (h : t.Operates o) : Mends t t := by
  refine ⟨?_, fun _ => rfl⟩
  rw [h.1, h.2]
  exact spells_symbol o

/-- A phrase of any tokens is also one of well spelled tokens. -/
theorem Derives.mend (h : Derives phrase ts) :
    ∃ ts', Derives phrase ts' ∧ List.Forall₂ Mends ts ts' := by
  induction h with
  | expression _ _ ihFirst ihRest =>
    obtain ⟨first, hFirst, hMends⟩ := ihFirst
    obtain ⟨rest, hRest, hMendsRest⟩ := ihRest
    exact ⟨first ++ rest, .expression hFirst hRest, List.rel_append hMends hMendsRest⟩
  | chainEnd => exact ⟨[], .chainEnd, .nil⟩
  | @chainNext t _ _ _ hOperator _ _ ihOperand ihRest =>
    obtain ⟨operand, hOperand, hMends⟩ := ihOperand
    obtain ⟨rest, hRest, hMendsRest⟩ := ihRest
    exact ⟨t :: (operand ++ rest), .chainNext hOperator hOperand hRest,
      .cons hOperator.mends (List.rel_append hMends hMendsRest)⟩
  | operandCall _ ih =>
    obtain ⟨ts', h, hMends⟩ := ih
    exact ⟨ts', .operandCall h, hMends⟩
  | operandNegative _ ih =>
    obtain ⟨ts', h, hMends⟩ := ih
    exact ⟨ts', .operandNegative h, hMends⟩
  | parenthesized hOpening _ hClosing ih =>
    obtain ⟨opening, hOpening, hMendsOpening⟩ := exists_mends_text hOpening (by decide)
    obtain ⟨inside, hInside, hMends⟩ := ih
    obtain ⟨closing, hClosing, hMendsClosing⟩ := exists_mends_text hClosing (by decide)
    exact ⟨opening :: (inside ++ [closing]), .parenthesized hOpening hInside hClosing,
      .cons hMendsOpening (List.rel_append hMends (.cons hMendsClosing .nil))⟩
  | operandTerm _ ih =>
    obtain ⟨ts', h, hMends⟩ := ih
    exact ⟨ts', .operandTerm h, hMends⟩
  | number hKind =>
    obtain ⟨t', hKind, hMends⟩ := exists_mends_kind hKind
    exact ⟨[t'], .number hKind, .cons hMends .nil⟩
  | text hKind =>
    obtain ⟨t', hKind, hMends⟩ := exists_mends_kind hKind
    exact ⟨[t'], .text hKind, .cons hMends .nil⟩
  | cell hKind =>
    obtain ⟨t', hKind, hMends⟩ := exists_mends_kind hKind
    exact ⟨[t'], .cell hKind, .cons hMends .nil⟩
  | range hFirst hColon hLast =>
    obtain ⟨first, hFirst, hMendsFirst⟩ := exists_mends_kind hFirst
    obtain ⟨colon, hColon, hMendsColon⟩ := exists_mends_text hColon (by decide)
    obtain ⟨last, hLast, hMendsLast⟩ := exists_mends_kind hLast
    exact ⟨[first, colon, last], .range hFirst hColon hLast,
      .cons hMendsFirst (.cons hMendsColon (.cons hMendsLast .nil))⟩
  | negative hMinus _ ih =>
    obtain ⟨minus, hMinus, hMendsMinus⟩ := exists_mends_text hMinus (by decide)
    obtain ⟨operand, hOperand, hMends⟩ := ih
    exact ⟨minus :: operand, .negative hMinus hOperand, .cons hMendsMinus hMends⟩
  | callEmpty hName hOpening hClosing =>
    obtain ⟨name, hName, hMendsName⟩ := exists_mends_kind hName
    obtain ⟨opening, hOpening, hMendsOpening⟩ := exists_mends_text hOpening (by decide)
    obtain ⟨closing, hClosing, hMendsClosing⟩ := exists_mends_text hClosing (by decide)
    exact ⟨[name, opening, closing], .callEmpty hName hOpening hClosing,
      .cons hMendsName (.cons hMendsOpening (.cons hMendsClosing .nil))⟩
  | call hName hOpening _ hClosing ih =>
    obtain ⟨name, hName, hMendsName⟩ := exists_mends_kind hName
    obtain ⟨opening, hOpening, hMendsOpening⟩ := exists_mends_text hOpening (by decide)
    obtain ⟨arguments, hArguments, hMends⟩ := ih
    obtain ⟨closing, hClosing, hMendsClosing⟩ := exists_mends_text hClosing (by decide)
    exact ⟨name :: opening :: (arguments ++ [closing]), .call hName hOpening hArguments hClosing,
      .cons hMendsName (.cons hMendsOpening (List.rel_append hMends (.cons hMendsClosing .nil)))⟩
  | lastArgument _ ih =>
    obtain ⟨ts', h, hMends⟩ := ih
    exact ⟨ts', .lastArgument h, hMends⟩
  | nextArgument _ hComma _ ihFirst ihRest =>
    obtain ⟨first, hFirst, hMendsFirst⟩ := ihFirst
    obtain ⟨comma, hComma, hMendsComma⟩ := exists_mends_text hComma (by decide)
    obtain ⟨rest, hRest, hMendsRest⟩ := ihRest
    exact ⟨first ++ comma :: rest, .nextArgument hFirst hComma hRest,
      List.rel_append hMendsFirst (.cons hMendsComma hMendsRest)⟩

theorem areClassed_of_mends (h : List.Forall₂ Mends ts us) : AreClassed us := by
  induction h with
  | nil => exact nofun
  | cons hMends _ ih => exact List.forall_mem_cons.mpr ⟨hMends.1, ih⟩

/-- Tokens that are well spelled already stay as they are. -/
theorem mends_append {vs : List Token} (h : List.Forall₂ Mends (ts ++ us) vs)
    (hTs : AreClassed ts) : ∃ us', vs = ts ++ us' ∧ AreClassed us' := by
  induction ts generalizing vs with
  | nil => exact ⟨vs, rfl, areClassed_of_mends h⟩
  | cons t ts ih =>
    obtain ⟨t', vs, hMends, hRest, rfl⟩ := List.forall₂_cons_left_iff.mp h
    obtain ⟨us', rfl, hUs'⟩ := ih hRest hTs.tail
    obtain rfl := hMends.2 (hTs t List.mem_cons_self)
    exact ⟨us', rfl, hUs'⟩

theorem AreClassed.areLexed (h : AreClassed ts) : AreLexed ts := by
  intro t ht hWord hSymbol
  obtain ⟨c, hc, hList⟩ := exists_of_mem_symbols hSymbol
  obtain ⟨c', r, hCons, hOpens⟩ := (h t ht).opens
  rw [hList] at hCons
  cases hCons
  have hOpensWord : opensWord c = true := by
    unfold Token.isWord at hWord
    cases hKind : t.kind <;> grind [opens, opensWord, isQuote]
  rw [not_isSymbol_of_opensWord hOpensWord] at hc
  cases hc

/-! ## What is refused could have gone on -/

/-- The tokens begin a phrase, and more has to come. -/
def Begins (language : List Token → Prop) (ts : List Token) : Prop :=
  ∃ rest, rest ≠ [] ∧ AreClassed rest ∧ language (ts ++ rest)

/-- The tokens up to the one that is refused begin a phrase; where the end is refused, all do. -/
inductive Refusal (stop : Nat) (language : List Token → Prop) :
    List Token → SyntaxFault → List Token → Prop
  | atToken {before us : List Token} {expected : Expectation} {t : Token}
      (h : Begins language before) :
      Refusal stop language (before ++ t :: us) (.unexpectedToken expected t) us
  | atEnd {ts : List Token} (h : Begins language ts) :
      Refusal stop language ts (.unexpectedEnd stop) []

/-- After the given tokens a phrase of the one language can be completed to one of the other. -/
def Frames (before : List Token) (inner outer : List Token → Prop) : Prop :=
  ∀ ts, inner ts → ∃ after, AreClassed after ∧ outer (before ++ (ts ++ after))

section

variable {stop : Nat} {inner outer language : List Token → Prop} {before : List Token}
  {fault : SyntaxFault}

theorem AreClassed.append (hTs : AreClassed ts) (hUs : AreClassed us) : AreClassed (ts ++ us) :=
  fun t ht => (List.mem_append.mp ht).elim (hTs t) (hUs t)

theorem Begins.frame (h : Begins inner ts) (hFrames : Frames before inner outer) :
    Begins outer (before ++ ts) := by
  obtain ⟨rest, hMore, hRest, hInner⟩ := h
  obtain ⟨after, hAfter, hOuter⟩ := hFrames _ hInner
  refine ⟨rest ++ after, by simp [hMore], hRest.append hAfter, ?_⟩
  simpa using hOuter

theorem Refusal.frame (h : Refusal stop inner ts fault us) (before : List Token)
    (hFrames : Frames before inner outer) : Refusal stop outer (before ++ ts) fault us := by
  cases h with
  | atToken h =>
    rw [← List.append_assoc]
    exact .atToken (h.frame hFrames)
  | atEnd h => exact .atEnd (h.frame hFrames)

theorem frames_of_imp (h : ∀ ts, inner ts → outer (before ++ ts)) : Frames before inner outer :=
  fun ts hInner => ⟨[], nofun, by simpa using h ts hInner⟩

/-- What one more token completes. -/
theorem begins_of_sample (kind : TokenKind) (h : language (ts ++ [sample kind])) :
    Begins language ts :=
  ⟨[sample kind], List.cons_ne_nil _ _, areClassed_sample kind, h⟩

namespace Reading

theorem refusal_expect {texts : List String} (h : expect stop texts ts = .error fault us)
    (hBegins : Begins language before) : Refusal stop language (before ++ ts) fault us := by
  obtain ⟨rfl, rfl, rfl⟩ | ⟨t, rfl, -, rfl⟩ := expect_eq_error.mp h
  · rw [List.append_nil]
    exact .atEnd hBegins
  · exact .atToken hBegins

theorem refusal_expectKind (h : expectKind stop kind ts = .error fault us)
    (hBegins : Begins language before) : Refusal stop language (before ++ ts) fault us := by
  obtain ⟨rfl, rfl, rfl⟩ | ⟨t, rfl, -, rfl⟩ := expectKind_eq_error.mp h
  · rw [List.append_nil]
    exact .atEnd hBegins
  · exact .atToken hBegins

theorem begins_operand : Begins (Derives .operand) [] :=
  begins_of_sample .number (.operandTerm (.number rfl))

theorem refusal_term (h : term stop ts = .error fault us) :
    Refusal stop (Derives .operand) ts fault us := by
  cases ts with
  | nil =>
    cases h
    exact .atEnd begins_operand
  | cons t rest =>
    rcases range_or_single t rest with ⟨hFirst, colon, rest, rfl, hColon⟩ | hSingle
    · rw [term_of_range_eq_error hFirst hColon] at h
      have hRange : Begins (Derives .operand) [t, colon] :=
        begins_of_sample .cell (.operandTerm (.range hFirst hColon rfl))
      exact refusal_expectKind h hRange
    · obtain ⟨-, rfl, rfl⟩ := (term_of_single_eq_error hSingle).mp h
      exact .atToken begins_operand

/-- What is asked of the reader: where it is refused at a sufficient depth, what it has taken
begins the phrase that it reads. -/
structure Refuses (stop depth : Nat) : Prop where
  expression : ∀ {ts fault us}, 3 * ts.length + 3 ≤ depth →
    expressionWithin stop depth ts = .error fault us →
    Refusal stop (Derives .expression) ts fault us
  chain : ∀ {waiting items ts fault us}, WellStacked waiting items → 3 * ts.length + 1 ≤ depth →
    chainWithin stop depth waiting items ts = .error fault us →
    Refusal stop (Derives .chain) ts fault us
  operand : ∀ {ts fault us}, 3 * ts.length + 2 ≤ depth →
    operandWithin stop depth ts = .error fault us → Refusal stop (Derives .operand) ts fault us
  negative : ∀ {ts fault us}, 3 * ts.length + 1 ≤ depth →
    negativeWithin stop depth ts = .error fault us → Refusal stop (Derives .operand) ts fault us
  parenthesized : ∀ {ts fault us}, 3 * ts.length + 1 ≤ depth →
    parenthesizedWithin stop depth ts = .error fault us →
    Refusal stop (Derives .operand) ts fault us
  call : ∀ {ts fault us}, 3 * ts.length + 1 ≤ depth →
    callWithin stop depth ts = .error fault us → Refusal stop (Derives .operand) ts fault us
  arguments : ∀ {ts fault us} (name : String), 3 * ts.length + 4 ≤ depth →
    argumentsWithin stop depth ts = .error fault us →
    Refusal stop (Layer.Takes (.arguments name [])) ts fault us

namespace Refuses

variable {depth : Nat} {waiting : List Operation} {items : List PostfixItem}

theorem zero (stop : Nat) : Refuses stop 0 := by
  constructor
  all_goals intros; omega

theorem expression_succ (h : Refuses stop depth) (hDepth : 3 * ts.length + 3 ≤ depth + 1)
    (hRun : expressionWithin stop (depth + 1) ts = .error fault us) :
    Refusal stop (Derives .expression) ts fault us := by
  rw [expressionWithin, bind_eq_error] at hRun
  rcases hRun with hOperand | ⟨f, vs, hOperand, hChain⟩
  · exact (h.operand (by omega) hOperand).frame []
      (frames_of_imp fun first hFirst => by simpa using Derives.expression hFirst .chainEnd)
  · obtain ⟨first, rfl, hFirst⟩ := ((sound stop depth).operand hOperand).takes
    rw [List.length_append] at hDepth
    exact (h.chain (.first f) (by omega) hChain).frame first
      (frames_of_imp fun rest hRest => .expression hFirst hRest)

theorem chain_succ (h : Refuses stop depth) (hStacks : WellStacked waiting items)
    (hDepth : 3 * ts.length + 1 ≤ depth + 1)
    (hRun : chainWithin stop (depth + 1) waiting items ts = .error fault us) :
    Refusal stop (Derives .chain) ts fault us := by
  cases hNext : nextOperation? ts with
  | none =>
    obtain ⟨f, hFinish⟩ := hStacks.finish
    rw [chain_of_none hNext, hFinish] at hRun
    exact absurd hRun pure_ne_error
  | some o =>
    obtain ⟨t, rest, rfl, ht⟩ := exists_of_nextOperation? hNext
    rw [List.length_cons] at hDepth
    rw [chain_of_operates ht, bind_eq_error] at hRun
    rcases hRun with hOperand | ⟨f, vs, hOperand, hChain⟩
    · exact (h.operand (by omega) hOperand).frame [t]
        (frames_of_imp fun operand hOperand => by
          simpa using Derives.chainNext ht hOperand .chainEnd)
    · obtain ⟨operand, rfl, hTaken⟩ := ((sound stop depth).operand hOperand).takes
      rw [List.length_append] at hDepth
      exact (h.chain (hStacks.push o f) (by omega) hChain).frame (t :: operand)
        (frames_of_imp fun rest hRest => .chainNext ht hTaken hRest)

theorem operand_succ (h : Refuses stop depth) (hDepth : 3 * ts.length + 2 ≤ depth + 1)
    (hRun : operandWithin stop (depth + 1) ts = .error fault us) :
    Refusal stop (Derives .operand) ts fault us := by
  rw [Reading.operand_succ] at hRun
  split at hRun
  · exact h.call (by omega) hRun
  · split at hRun
    · exact h.negative (by omega) hRun
    · split at hRun
      · exact h.parenthesized (by omega) hRun
      · exact refusal_term hRun

theorem negative_succ (h : Refuses stop depth) (hDepth : 3 * ts.length + 1 ≤ depth + 1)
    (hRun : negativeWithin stop (depth + 1) ts = .error fault us) :
    Refusal stop (Derives .operand) ts fault us := by
  simp only [negativeWithin, bind_eq_error, expect_eq_ok, pure_ne_error, and_false, exists_false,
    or_false] at hRun
  rcases hRun with hMinus | ⟨t, vs, ⟨rfl, hMinus⟩, hExpression⟩
  · exact refusal_expect hMinus begins_operand
  · rw [List.length_cons] at hDepth
    exact (h.expression (by omega) hExpression).frame [t] (frames_of_imp
      fun inside hInside => .operandNegative (.negative (List.mem_singleton.mp hMinus) hInside))

theorem parenthesized_succ (h : Refuses stop depth) (hDepth : 3 * ts.length + 1 ≤ depth + 1)
    (hRun : parenthesizedWithin stop (depth + 1) ts = .error fault us) :
    Refusal stop (Derives .operand) ts fault us := by
  simp only [parenthesizedWithin, bind_eq_error, expect_eq_ok, pure_ne_error, and_false,
    exists_false, or_false, List.mem_singleton] at hRun
  rcases hRun with hOpening | ⟨opening, vs, ⟨rfl, hOpening⟩, hExpression | ⟨f, ws, hInside, hEnd⟩⟩
  · exact refusal_expect hOpening begins_operand
  · rw [List.length_cons] at hDepth
    exact (h.expression (by omega) hExpression).frame [opening]
      fun inside hInside => ⟨[sample .punctuation], areClassed_sample .punctuation,
        .parenthesized hOpening hInside rfl⟩
  · obtain ⟨inside, rfl, hTaken⟩ := ((sound stop depth).expression hInside).takes
    have hBegins : Begins (Derives .operand) (opening :: inside) :=
      begins_of_sample .punctuation (.parenthesized hOpening hTaken rfl)
    exact refusal_expect hEnd hBegins

theorem call_succ (h : Refuses stop depth) (hDepth : 3 * ts.length + 1 ≤ depth + 1)
    (hRun : callWithin stop (depth + 1) ts = .error fault us) :
    Refusal stop (Derives .operand) ts fault us := by
  rw [callWithin, bind_eq_error] at hRun
  rcases hRun with hNone | ⟨name, vs, hNext, hRun⟩
  · exact refusal_expectKind hNone begins_operand
  obtain ⟨rfl, hName⟩ := expectKind_eq_ok.mp hNext
  rcases bind_eq_error.mp hRun with hNone | ⟨opening, ws, hNext', hAfter⟩
  · have hBegins : Begins (Derives .operand) [name] :=
      ⟨[⟨.punctuation, "(", 0⟩, sample .punctuation], List.cons_ne_nil _ _,
        List.forall_mem_cons.mpr ⟨⟨'(', rfl, rfl⟩, areClassed_sample .punctuation⟩,
        .operandCall (.callEmpty hName rfl rfl)⟩
    exact refusal_expect hNone hBegins
  obtain ⟨rfl, hText⟩ := expect_eq_ok.mp hNext'
  have hOpening : opening.text = "(" := List.mem_singleton.mp hText
  simp only [List.length_cons] at hDepth
  rw [Resumes.get_ite] at hAfter
  beta_reduce at hAfter
  split at hAfter
  · have hBegins : Begins (Derives .operand) [name, opening] :=
      begins_of_sample .punctuation (.operandCall (.callEmpty hName hOpening rfl))
    simp only [bind_eq_error, pure_ne_error, and_false, exists_false, or_false] at hAfter
    exact refusal_expect hAfter hBegins
  · simp only [bind_eq_error, pure_ne_error, and_false, exists_false, or_false] at hAfter
    refine (h.arguments name.text (by omega) hAfter).frame [name, opening]
      (frames_of_imp fun inside hInside => ?_)
    obtain ⟨arguments, closing, rfl, hArguments, hClosing⟩ := hInside
    exact .operandCall (.call hName hOpening hArguments hClosing)

theorem arguments_succ (h : Refuses stop depth) (name : String)
    (hDepth : 3 * ts.length + 4 ≤ depth + 1)
    (hRun : argumentsWithin stop (depth + 1) ts = .error fault us) :
    Refusal stop (Layer.Takes (.arguments name [])) ts fault us := by
  rw [argumentsWithin, bind_eq_error] at hRun
  rcases hRun with hExpression | ⟨f, vs, hExpression, hRun⟩
  · exact (h.expression (by omega) hExpression).frame []
      fun first hFirst => ⟨[sample .punctuation], areClassed_sample .punctuation,
        first, sample .punctuation, rfl, .lastArgument hFirst, rfl⟩
  obtain ⟨first, rfl, hFirst⟩ := ((sound stop depth).expression hExpression).takes
  rcases bind_eq_error.mp hRun with hEnd | ⟨t, ws, hNext, hAfter⟩
  · have hBegins : Begins (Layer.Takes (.arguments name [])) first :=
      begins_of_sample .punctuation ⟨first, sample .punctuation, rfl, .lastArgument hFirst, rfl⟩
    exact refusal_expect hEnd hBegins
  obtain ⟨rfl, hText⟩ := expect_eq_ok.mp hNext
  simp only [List.length_append, List.length_cons] at hDepth
  by_cases hComma : t.text = ","
  · simp only [hComma, beq_self_eq_true, if_true, bind_eq_error, pure_ne_error, and_false,
      exists_false, or_false] at hAfter
    rw [List.append_cons]
    refine (h.arguments name (by omega) hAfter).frame (first ++ [t])
      (frames_of_imp fun rest hRest => ?_)
    obtain ⟨inside, closing, rfl, hInside, hClosing⟩ := hRest
    exact ⟨first ++ t :: inside, closing, by simp, .nextArgument hFirst hComma hInside, hClosing⟩
  · rw [if_neg (by simpa using hComma)] at hAfter
    exact absurd hAfter pure_ne_error

end Refuses

theorem refuses (stop depth : Nat) : Refuses stop depth := by
  induction depth with
  | zero => exact .zero stop
  | succ depth ih =>
    exact {
      expression := ih.expression_succ
      chain := ih.chain_succ
      operand := ih.operand_succ
      negative := ih.negative_succ
      parenthesized := ih.parenthesized_succ
      call := ih.call_succ
      arguments := ih.arguments_succ }

/-- Whether the tokens are refused inside an expression or after it, they go on to no formula. -/
theorem complete_eq_error : complete stop ts = .error fault us ↔
    expression stop ts = .error fault us ∨ ∃ f t rest, expression stop ts = .ok f (t :: rest) ∧
      fault = .unexpectedToken .endOfInput t ∧ us = t :: rest := by
  rw [complete, bind_eq_error]
  refine or_congr_right ⟨?_, ?_⟩
  · rintro ⟨f, vs, hRun, h⟩
    cases vs with
    | nil => exact absurd h pure_ne_error
    | cons t rest =>
      obtain ⟨rfl, rfl⟩ := throw_eq_error.mp h
      exact ⟨f, t, rest, hRun, rfl, rfl⟩
  · rintro ⟨f, t, rest, hRun, rfl, rfl⟩
    exact ⟨f, t :: rest, hRun, rfl⟩

end Reading

end

/-! ## What is refused goes on to no formula -/

section

variable {before after : List Token} {fault : SyntaxFault} {stop depth : Nat}

/-- Where tokens of a text begin a formula, the reader comes to the end of one that begins so. -/
theorem Derives.exists_run (h : Derives .expression (before ++ after)) (hBefore : AreClassed before)
    (stop depth : Nat) : ∃ after' f deeper, depth ≤ deeper ∧
      Reading.expressionWithin stop deeper (before ++ after') = .ok f [] := by
  -- no text need spell the tokens of `after`, so the reader comes through mended ones instead
  obtain ⟨vs, hMended, hMends⟩ := h.mend
  obtain ⟨after', rfl, hAfter⟩ := mends_append hMends hBefore
  obtain ⟨f, hReads⟩ := derives_iff_reads.mp hMended
  have hRuns : Reading.Runs stop .expression _ f [] :=
    Reading.runs_of_reads hReads (hBefore.append hAfter).areLexed
  exact ⟨after', f, _, Nat.le_max_left _ _, hRuns _ (Nat.le_max_right depth _)⟩

/-- A token that an expression is refused at is refused in every formula that begins so. -/
theorem not_derives_of_refused {expected : Expectation} (hTokens : AreClassed (before ++ [t]))
    (hRun : Reading.expressionWithin stop depth (before ++ t :: us) =
      .error (.unexpectedToken expected t) us) :
    ¬ Derives .expression (before ++ [t] ++ after) := by
  intro hDerives
  obtain ⟨after', f, deeper, hDeeper, hOk⟩ := hDerives.exists_run hTokens stop depth
  -- the deeper descent is refused at the same token, whatever comes after it
  obtain ⟨taken, hTaken, hAgain⟩ := (Reading.deepens stop hDeeper).expression.refused hRun
  obtain rfl := List.append_cancel_right hTaken
  rw [List.append_assoc, List.singleton_append, hAgain] at hOk
  cases hOk

/-- A token that is left over is left over in every formula that begins so. -/
theorem not_derives_of_left {f : Formula} (hTokens : AreClassed (before ++ [t]))
    (hRun : Reading.expressionWithin stop depth (before ++ t :: us) = .ok f (t :: us)) :
    ¬ Derives .expression (before ++ [t] ++ after) := by
  intro hDerives
  obtain ⟨after', g, deeper, hDeeper, hOk⟩ := hDerives.exists_run hTokens stop depth
  obtain ⟨taken, hTaken, hAgain⟩ := (Reading.deepens stop hDeeper).expression.ends hRun
  obtain rfl := List.append_cancel_right hTaken
  rw [List.append_assoc, List.singleton_append, hAgain (t :: after') rfl] at hOk
  cases hOk

end

theorem areClassed_of_tokenize {source : String} (h : tokenize source = .ok ts) :
    AreClassed ts := by
  obtain ⟨q, hLexes⟩ := scan_eq_ok.mp h
  exact hLexes.segments.spells

theorem sourceEnd_eq (ts : List Token) :
    sourceEnd ts = (ts.getLast?.map Token.stop).getD 0 := by
  rw [sourceEnd]
  cases ts.getLast? <;> rfl

namespace Formula

/-- A text that is no formula is refused at the first of its tokens with which no formula begins,
or at its end, where all its tokens begin a formula but are none. -/
theorem ofTokens_refuses {source : String} {tokens : List Token}
    (h : tokenize source = .ok tokens) {fault : SyntaxFault}
    (hFault : ofTokens tokens = .error fault) :
    (∃ expected found k, fault = .unexpectedToken expected found ∧ tokens[k]? = some found ∧
      (∃ rest, AreClassed rest ∧ Derives .expression (tokens.take k ++ rest)) ∧
      ∀ rest, ¬ Derives .expression (tokens.take (k + 1) ++ rest)) ∨
    (∃ position, fault = .unexpectedEnd position ∧
      position = (tokens.getLast?.map Token.stop).getD 0 ∧
      ∃ rest, rest ≠ [] ∧ AreClassed rest ∧ Derives .expression (tokens ++ rest)) := by
  have hTokens := areClassed_of_tokenize h
  have hTake : ∀ before t (after : List Token), (before ++ t :: after).take (before.length + 1) =
      before ++ [t] := fun before t after => by simp [List.take_append]
  unfold ofTokens at hFault
  split at hFault
  · cases hFault
  · rename_i fault' us hComplete
    cases hFault
    rcases Reading.complete_eq_error.mp hComplete with hRun | ⟨f, t, rest, hRun, rfl, rfl⟩
    · cases (Reading.refuses _ _).expression (Nat.le_succ _) hRun with
      | @atToken before us expected t hBegins =>
        obtain ⟨rest, -, hRest, hDerives⟩ := hBegins
        refine .inl ⟨expected, t, before.length, rfl, by simp, ⟨rest, hRest, by simpa⟩, ?_⟩
        intro rest
        rw [hTake]
        refine not_derives_of_refused (fun u hu => hTokens u ?_) hRun
        simpa [or_assoc] using List.mem_append_left us hu
      | atEnd hBegins => exact .inr ⟨_, rfl, sourceEnd_eq _, hBegins⟩
    · obtain ⟨before, hText, hBefore⟩ := ((Reading.sound _ _).expression hRun).takes
      subst hText
      refine .inl ⟨.endOfInput, t, before.length, rfl, by simp, ⟨[], nofun, by simpa⟩, ?_⟩
      intro after
      rw [hTake]
      refine not_derives_of_left (fun u hu => hTokens u ?_) hRun
      simpa [or_assoc] using List.mem_append_left rest hu

/-- A range without its last cell is refused at the comma, and an open parenthesis at the end. -/
theorem ofTokens_refuses_openRange :
    (∃ tokens, tokenize "F(A1:,2" = .ok tokens ∧ ∃ expected found k,
      ofTokens tokens = .error (.unexpectedToken expected found) ∧ tokens[k]? = some found ∧
      (∃ rest, AreClassed rest ∧ Derives .expression (tokens.take k ++ rest)) ∧
      ∀ rest, ¬ Derives .expression (tokens.take (k + 1) ++ rest)) ∧
    ∃ tokens, tokenize "2-(" = .ok tokens ∧ ofTokens tokens = .error (.unexpectedEnd 3) ∧
      ∃ rest, rest ≠ [] ∧ AreClassed rest ∧ Derives .expression (tokens ++ rest) := by
  constructor
  · let tokens : List Token := [⟨.identifier, "F", 0⟩, ⟨.punctuation, "(", 1⟩, ⟨.cell, "A1", 2⟩,
      ⟨.punctuation, ":", 4⟩, ⟨.punctuation, ",", 5⟩, ⟨.number, "2", 6⟩]
    have hTokens : tokenize "F(A1:,2" = .ok tokens := by cbv
    have hRun : ofTokens tokens =
      .error (.unexpectedToken (.kind .cell) ⟨.punctuation, ",", 5⟩) := by rfl
    obtain ⟨expected, found, k, hFault, hRest⟩ | ⟨_, ⟨⟩, -⟩ := ofTokens_refuses hTokens hRun
    exact ⟨tokens, hTokens, expected, found, k, hFault ▸ hRun, hRest⟩
  · let tokens : List Token := [⟨.number, "2", 0⟩, ⟨.operator, "-", 1⟩, ⟨.punctuation, "(", 2⟩]
    have hTokens : tokenize "2-(" = .ok tokens := by cbv
    have hRun : ofTokens tokens = .error (.unexpectedEnd 3) := by rfl
    obtain ⟨_, _, _, ⟨⟩, -⟩ | ⟨_, -, -, hRest⟩ := ofTokens_refuses hTokens hRun
    exact ⟨tokens, hTokens, hRun, hRest⟩

end Formula
end Spreadsheet
