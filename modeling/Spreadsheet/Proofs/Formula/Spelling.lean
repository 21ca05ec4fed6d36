import Spreadsheet.Proofs.Address.Spelling
import Spreadsheet.Proofs.Formula.Grouping
import Spreadsheet.Proofs.Formula.Segments
import Spreadsheet.Proofs.Lockstep

/-!
# Spellings of one formula

Formulas that differ in the spelling of addresses and names alone are cut into tokens alike and read
alike: the trees differ in these words alone, or reading fails in one way. The reader is followed
step by step, because its faults count as well as its trees.
-/

set_option autoImplicit false

namespace Spreadsheet

open Number (Operation)

namespace Lexer

/-- The second lexeme is a spelling of the first one. -/
def Respells : TokenKind → List Char → List Char → Prop
  | .cell, l, l' => SameAddress l l'
  | .identifier, l, l' => SameName l l'
  | kind, l, l' => Spells kind l ∧ l' = l

/-- The second text is the first one with lexemes in other spellings. After a character where no
token starts nothing is read any more. -/
inductive RespellsText : List Char → List Char → Prop
  | done : RespellsText [] []
  | space {c : Char} {cs cs' : List Char} (hc : isSpace c = true) (h : RespellsText cs cs') :
      RespellsText (c :: cs) (c :: cs')
  | lexeme {kind : TokenKind} {l l' cs cs' : List Char} (hRespells : Respells kind l l')
      (hEnds : EndsBefore kind l cs) (h : RespellsText cs cs') : RespellsText (l ++ cs) (l' ++ cs')
  | stuck {c : Char} {cs cs' : List Char} (h : IsStuck (c :: cs)) (h' : IsStuck (c :: cs')) :
      RespellsText (c :: cs) (c :: cs')

variable {kind : TokenKind} {c : Char} {l l' cs cs' rest : List Char}

theorem Respells.left (h : Respells kind l l') : Spells kind l := by
  cases kind with
  | cell =>
    cases h with
    | intro zeros hNonempty hLetters _ hRow hDigits _ =>
      exact ⟨_, _, hNonempty, hRow, hLetters, hDigits, rfl⟩
  | identifier => exact ⟨h.nonempty, h.letters⟩
  | number | text | operator | punctuation => exact h.1

theorem Respells.right (h : Respells kind l l') : Spells kind l' := by
  cases kind with
  | cell =>
    cases h with
    | intro zeros hNonempty hLetters hCase hRow hDigits _ =>
      exact ⟨_, _, ne_nil_of_case hNonempty hCase, List.append_ne_nil_of_right_ne_nil _ hRow,
        areLetters_of_case hLetters hCase, areDigits_zeros hDigits, rfl⟩
  | identifier => exact ⟨ne_nil_of_case h.nonempty h.case, areLetters_of_case h.letters h.case⟩
  | number | text | operator | punctuation => exact h.2 ▸ h.1

theorem SameAddress.refl (h : Spells .cell l) : SameAddress l l := by
  obtain ⟨letters, digits, hNonempty, hDigitsNonempty, hLetters, hDigits, rfl⟩ := h
  exact .intro 0 hNonempty hLetters rfl hDigitsNonempty hDigits (.inl rfl)

theorem Respells.refl (h : Spells kind l) : Respells kind l l := by
  cases kind with
  | cell => exact SameAddress.refl h
  | identifier => exact ⟨h.1, h.2, rfl⟩
  | number | text | operator | punctuation => exact ⟨h, rfl⟩

/-- Another spelling starts with the same character, or with a letter for a letter. -/
def HeadsAgree (cs cs' : List Char) : Prop :=
  ∀ c' ∈ cs'.head?, ∃ c ∈ cs.head?, c' = c ∨ isLetter c = true ∧ isLetter c' = true

theorem Respells.headsAgree (h : Respells kind l l') (cs cs' : List Char) :
    HeadsAgree (l ++ cs) (l' ++ cs') := by
  obtain ⟨c, r, hLeft, hc⟩ := h.left.opens
  obtain ⟨c', r', hRight, hc'⟩ := h.right.opens
  rw [hLeft, hRight]
  rintro _ ⟨⟩
  refine ⟨c, rfl, ?_⟩
  cases kind with
  | cell | identifier => exact .inr ⟨hc, hc'⟩
  | number | text | operator | punctuation =>
    have hSame := h.2
    rw [hLeft, hRight] at hSame
    cases hSame
    exact .inl rfl

theorem RespellsText.headsAgree (h : RespellsText cs cs') : HeadsAgree cs cs' := by
  cases h with
  | done => exact nofun
  | lexeme hRespells => exact hRespells.headsAgree _ _
  | space | stuck =>
    rintro _ ⟨⟩
    exact ⟨_, rfl, .inl rfl⟩

theorem Continues.of_respells (h : Respells kind l l') {c' : Char}
    (hc : c' = c ∨ isLetter c = true ∧ isLetter c' = true) (hContinues : Continues kind l' c') :
    Continues kind l c := by
  rcases hc with rfl | ⟨hLetter, hLetter'⟩
  · -- what goes on with a word does not depend on the letters of the word
    cases kind with
    | cell | identifier => exact hContinues
    | number | text | operator | punctuation => exact h.2 ▸ hContinues
  · cases kind with
    | cell =>
      have hDigit : Decimal.isDigit c' = true := hContinues
      rw [isDigit_of_isLetter hLetter'] at hDigit
      cases hDigit
    | identifier => exact .inl hLetter
    | number =>
      rcases IsNumeral.digit_or_point hContinues c' (by simp) with hDigit | rfl
      · rw [isDigit_of_isLetter hLetter'] at hDigit
        cases hDigit
      · exact absurd hLetter' (by decide)
    | text | operator | punctuation => exact hContinues

theorem EndsBefore.of_respells (hEnds : EndsBefore kind l cs) (h : Respells kind l l')
    (hHeads : HeadsAgree cs cs') : EndsBefore kind l' cs' := by
  intro c' hc' hContinues
  obtain ⟨c, hc, hSame⟩ := hHeads c' hc'
  exact hEnds c hc (hContinues.of_respells h hSame)

theorem RespellsText.refl (cs : List Char) : RespellsText cs cs := by
  obtain ⟨ts, q, rest, h, hEnd⟩ := exists_lexes 0 cs
  generalize 0 = p at h
  induction h with
  | done =>
    rcases hEnd with rfl | hStuck
    · exact .done
    · obtain ⟨c, r, rfl, -⟩ := id hStuck
      exact .stuck hStuck hStuck
  | space hc _ ih => exact .space hc (ih hEnd)
  | lexeme hSpells hEnds _ ih => exact .lexeme (.refl hSpells) hEnds (ih hEnd)

end Lexer

open Lexer

/-! ## Tokens -/

structure Token.Respells (t t' : Token) : Prop where
  kind : t'.kind = t.kind
  text : Lexer.Respells t.kind t.text.toList t'.text.toList

def SyntaxFault.SameKind (fault fault' : SyntaxFault) : Prop := fault'.kindName = fault.kindName

theorem scan_agrees {cs cs' : List Char} (h : RespellsText cs cs') (p p' : Nat) :
    Agrees SyntaxFault.SameKind (List.Forall₂ Token.Respells) (scan p cs) (scan p' cs') := by
  induction h generalizing p p' with
  | done =>
    rw [scan, scan]
    exact .ok .nil
  | space hc _ ih =>
    rw [scan_space hc, scan_space hc]
    exact ih (p + 1) (p' + 1)
  | @lexeme kind l l' cs cs' hRespells hEnds h ih =>
    have hEnds' := hEnds.of_respells hRespells h.headsAgree
    rw [scan_lexeme (lexeme?_of_spells hRespells.left hEnds),
      scan_lexeme (lexeme?_of_spells hRespells.right hEnds'), List.drop_left, List.drop_left]
    have hToken : Token.Respells ⟨kind, String.ofList l, p⟩ ⟨kind, String.ofList l', p'⟩ :=
      ⟨rfl, by simpa using hRespells⟩
    have hRest := ih (p + l.length) (p' + l'.length)
    generalize scan (p + l.length) cs = r at hRest ⊢
    generalize scan (p' + l'.length) cs' = r' at hRest ⊢
    cases hRest with
    | ok hTokens => exact .ok (.cons hToken hTokens)
    | error hFault => exact .error hFault
  | stuck h h' =>
    rw [scan_of_isStuck h, scan_of_isStuck h']
    exact .error rfl

section

variable {t t' : Token} {ts ts' : List Token} {texts : List String}

/-- A word may be spelled in another way, but never like a symbol. -/
theorem Token.Respells.text_iff (h : t.Respells t') {symbol : String} (hSymbol : symbol ∈ symbols) :
    t'.text = symbol ↔ t.text = symbol := by
  have hWord : ∀ {kind : TokenKind} {text : String}, kind = .cell ∨ kind = .identifier →
      Spells kind text.toList → text ≠ symbol := by
    rintro kind text hKind hSpells rfl
    obtain ⟨c, hc, hText⟩ := exists_of_mem_symbols hSymbol
    obtain ⟨c', r, hText', hOpens⟩ := hSpells.opens
    rw [hText] at hText'
    cases hText'
    have hInner := isInner_of_isSymbol hc
    rcases hKind with rfl | rfl
    all_goals
      have hLetter : isLetter c = true := hOpens
      simp [isInner, hLetter] at hInner
  obtain ⟨-, hText⟩ := h
  cases hKind : t.kind with
  | cell | identifier =>
    rw [hKind] at hText
    have hNot := hWord (by simp) hText.left
    have hNot' := hWord (by simp) hText.right
    exact ⟨fun h => absurd h hNot', fun h => absurd h hNot⟩
  | number | text | operator | punctuation =>
    rw [hKind] at hText
    rw [String.toList_injective hText.2]

theorem Token.Respells.mem_iff (h : t.Respells t') (hTexts : texts ⊆ symbols) :
    t'.text ∈ texts ↔ t.text ∈ texts := by
  constructor
  · intro hMem
    rwa [(h.text_iff (hTexts hMem)).mp rfl]
  · intro hMem
    rwa [(h.text_iff (hTexts hMem)).mpr rfl]

theorem Token.Respells.address (h : t.Respells t') (hKind : t.kind = .cell) :
    SameAddress t.text.toList t'.text.toList := by
  have hText := h.text
  rwa [hKind] at hText

theorem Token.Respells.name (h : t.Respells t') (hKind : t.kind = .identifier) :
    SameName t.text.toList t'.text.toList := by
  have hText := h.text
  rwa [hKind] at hText

theorem Token.Respells.literal (h : t.Respells t') (hKind : t.kind = .number ∨ t.kind = .text) :
    t'.text = t.text := by
  have hText := h.text
  rcases hKind with hKind | hKind <;> rw [hKind] at hText <;>
    exact String.toList_injective hText.2

theorem isNext_respells (h : List.Forall₂ Token.Respells ts ts') (hTexts : texts ⊆ symbols) :
    Reading.isNext texts ts' = Reading.isNext texts ts := by
  cases h with
  | nil => rfl
  | cons ht _ =>
    simp only [Reading.isNext, List.contains_eq_mem, decide_eq_decide]
    exact ht.mem_iff hTexts

theorem isNextKind_respells (h : List.Forall₂ Token.Respells ts ts') (kind : TokenKind) :
    Reading.isNextKind kind ts' = Reading.isNextKind kind ts := by
  cases h with
  | nil => rfl
  | cons ht _ => rw [Reading.isNextKind, Reading.isNextKind, ht.kind]

theorem nextOperation?_respells (h : List.Forall₂ Token.Respells ts ts') :
    Reading.nextOperation? ts' = Reading.nextOperation? ts := by
  cases h with
  | nil => rfl
  | @cons t t' _ _ ht _ =>
    obtain ⟨hKind, hText⟩ := ht
    cases hOperator : t.kind with
    | operator =>
      rw [hOperator] at hText
      rw [Reading.nextOperation?, Reading.nextOperation?, hKind,
        String.toList_injective hText.2]
    | _ => simp [Reading.nextOperation?, hKind, hOperator]

end

/-! ## Formulas -/

namespace Formula

mutual

/-- The second formula is the first one with addresses and names in other spellings. -/
inductive Respells : Formula → Formula → Prop
  | text (quoted : String) : Respells (.text quoted) (.text quoted)
  | number (digits : String) : Respells (.number digits) (.number digits)
  | cell {address address' : String} (h : SameAddress address.toList address'.toList) :
      Respells (.cell address) (.cell address')
  | range {first first' last last' : String} (hFirst : SameAddress first.toList first'.toList)
      (hLast : SameAddress last.toList last'.toList) :
      Respells (.range first last) (.range first' last')
  | negative {f f' : Formula} (h : Respells f f') : Respells (.negative f) (.negative f')
  | call {name name' : String} {fs fs' : List Formula} (hName : SameName name.toList name'.toList)
      (hArguments : RespellsAll fs fs') : Respells (.call name fs) (.call name' fs')
  | binary {o : Operation} {f f' g g' : Formula} (hLeft : Respells f f') (hRight : Respells g g') :
      Respells (.binary o f g) (.binary o f' g')

inductive RespellsAll : List Formula → List Formula → Prop
  | nil : RespellsAll [] []
  | cons {f f' : Formula} {fs fs' : List Formula} (h : Respells f f') (hRest : RespellsAll fs fs') :
      RespellsAll (f :: fs) (f' :: fs')

end

/-- The text of the second formula is that of the first one with words in other spellings. -/
def RespellsIn (source source' : String) : Prop :=
  RespellsText (body source).toList (body source').toList

end Formula

inductive PostfixItem.Respells : PostfixItem → PostfixItem → Prop
  | operand {f f' : Formula} (h : f.Respells f') : Respells (.operand f) (.operand f')
  | operator (symbol : String) : Respells (.operator symbol) (.operator symbol)

namespace Reading

variable {α : Type} {A : α → α → Prop} {stop stop' depth : Nat} {texts : List String}
  {kind : TokenKind} {waiting : List Operation} {items items' : List PostfixItem}

/-- Reading steps that keep in step over tokens in other spellings. -/
abbrev ReadsAlike (A : α → α → Prop) (x y : Reading α) : Prop :=
  Lockstep SyntaxFault.SameKind (List.Forall₂ Token.Respells) A x y

theorem next_alike : ReadsAlike Token.Respells (next stop) (next stop') := by
  intro ts ts' h
  cases h with
  | nil => exact .error rfl .nil
  | cons ht hRest => exact .ok ht hRest

theorem expect_alike (hTexts : texts ⊆ symbols) :
    ReadsAlike (fun t t' => t.Respells t' ∧ t.text ∈ texts) (expect stop texts)
      (expect stop' texts) := by
  refine next_alike.bind fun t t' ht => .ite ?_ (fun hMem => ?_) fun _ => .throw rfl
  · simp only [List.contains_eq_mem, decide_eq_true_eq]
    exact ht.mem_iff hTexts
  · exact .pure ⟨ht, by simpa using hMem⟩

theorem expectKind_alike :
    ReadsAlike (fun t t' => t.Respells t' ∧ t.kind = kind) (expectKind stop kind)
      (expectKind stop' kind) := by
  refine next_alike.bind fun t t' ht => .ite ?_ (fun hKind => .pure ⟨ht, hKind⟩) fun _ => .throw rfl
  rw [ht.kind]

theorem term_alike : ReadsAlike Formula.Respells (term stop) (term stop') := by
  refine next_alike.bind fun t t' ht => Lockstep.get.bind fun ts ts' hts => ?_
  refine .ite ?_ (fun hRange => ?_) fun _ => ?_
  · rw [ht.kind, isNext_respells hts (by decide)]
  · simp only [Bool.and_eq_true, decide_eq_true_eq] at hRange
    refine (expect_alike (by decide)).bind fun _ _ _ => ?_
    refine expectKind_alike.bind fun last last' hLast => .pure ?_
    exact .range (ht.address hRange.1) (hLast.1.address hLast.2)
  · rw [ht.kind]
    cases hKind : t.kind with
    | number =>
      rw [ht.literal (.inl hKind)]
      exact .pure (.number t.text)
    | text =>
      rw [ht.literal (.inr hKind)]
      exact .pure (.text t.text)
    | cell => exact .pure (.cell (ht.address hKind))
    | identifier | operator | punctuation => exact .throw rfl

theorem reduce_alike (depth : Nat) :
    Lockstep SyntaxFault.SameKind (List.Forall₂ PostfixItem.Respells) Formula.Respells
      (reduce depth) (reduce depth) := by
  induction depth with
  | zero => exact .throw rfl
  | succ depth ih =>
    rw [reduce]
    refine Lockstep.get.bind fun items items' h => ?_
    cases h with
    | nil => exact .throw rfl
    | cons hItem hRest =>
      cases hItem with
      | operand h => exact (Lockstep.set hRest).andThen (.pure h)
      | operator symbol =>
        refine (Lockstep.set hRest).andThen ?_
        refine ih.bind fun right right' hRight => ih.bind fun left left' hLeft => ?_
        cases Operation.ofSymbol? symbol with
        | none => exact .throw rfl
        | some o => exact .pure (.binary hLeft hRight)

variable (waiting) in
theorem unwind_alike (o : Operation) (h : List.Forall₂ PostfixItem.Respells items items') :
    (unwind o waiting items').1 = (unwind o waiting items).1 ∧
      List.Forall₂ PostfixItem.Respells (unwind o waiting items).2 (unwind o waiting items').2 := by
  induction waiting generalizing items items' with
  | nil => exact ⟨rfl, h⟩
  | cons o' waiting ih =>
    rw [unwind, unwind]
    split
    · exact ih (.cons (.operator o'.symbol) h)
    · exact ⟨rfl, h⟩

theorem unwindAll_alike (h : List.Forall₂ PostfixItem.Respells items items') :
    List.Forall₂ PostfixItem.Respells (unwindAll waiting items) (unwindAll waiting items') := by
  induction waiting generalizing items items' with
  | nil => exact h
  | cons o waiting ih => exact ih (.cons (.operator o.symbol) h)

theorem finish_alike (h : List.Forall₂ PostfixItem.Respells items items') :
    ReadsAlike Formula.Respells (finish items) (finish items') := by
  have hReduce := reduce_alike (items.length + 1) items items' h
  unfold finish
  rw [← h.length_eq]
  generalize reduce (items.length + 1) items = r at hReduce ⊢
  generalize reduce (items.length + 1) items' = r' at hReduce ⊢
  cases hReduce with
  | ok hTree => exact .pure hTree
  | error hFault => exact .throw hFault

/-- The steps of reading that are nested down to a depth keep in step. -/
structure AlikeWithin (stop stop' depth : Nat) : Prop where
  expression : ReadsAlike Formula.Respells (expressionWithin stop depth)
    (expressionWithin stop' depth)
  chain : ∀ {waiting items items'}, List.Forall₂ PostfixItem.Respells items items' →
    ReadsAlike Formula.Respells (chainWithin stop depth waiting items)
      (chainWithin stop' depth waiting items')
  operand : ReadsAlike Formula.Respells (operandWithin stop depth) (operandWithin stop' depth)
  negative : ReadsAlike Formula.Respells (negativeWithin stop depth) (negativeWithin stop' depth)
  parenthesized : ReadsAlike Formula.Respells (parenthesizedWithin stop depth)
    (parenthesizedWithin stop' depth)
  call : ReadsAlike Formula.Respells (callWithin stop depth) (callWithin stop' depth)
  arguments : ReadsAlike Formula.RespellsAll (argumentsWithin stop depth)
    (argumentsWithin stop' depth)

namespace AlikeWithin

variable (h : AlikeWithin stop stop' depth)

include h

theorem expression_succ : ReadsAlike Formula.Respells (expressionWithin stop (depth + 1))
    (expressionWithin stop' (depth + 1)) := by
  rw [expressionWithin, expressionWithin]
  exact h.operand.bind fun f f' hf => h.chain (.cons (.operand hf) .nil)

theorem chain_succ (hItems : List.Forall₂ PostfixItem.Respells items items') :
    ReadsAlike Formula.Respells (chainWithin stop (depth + 1) waiting items)
      (chainWithin stop' (depth + 1) waiting items') := by
  rw [chainWithin, chainWithin]
  refine Lockstep.get.bind fun ts ts' hts => ?_
  rw [nextOperation?_respells hts]
  cases nextOperation? ts with
  | none => exact finish_alike (unwindAll_alike hItems)
  | some o =>
    obtain ⟨hWaiting, hUnwound⟩ := unwind_alike waiting o hItems
    refine next_alike.bind fun _ _ _ => h.operand.bind fun f f' hf => ?_
    rw [hWaiting]
    exact h.chain (.cons (.operand hf) hUnwound)

theorem operand_succ : ReadsAlike Formula.Respells (operandWithin stop (depth + 1))
    (operandWithin stop' (depth + 1)) := by
  rw [operandWithin, operandWithin]
  refine Lockstep.get.bind fun ts ts' hts => ?_
  refine .ite (by rw [isNextKind_respells hts]) (fun _ => h.call) fun _ => ?_
  refine .ite (by rw [isNext_respells hts (by decide)]) (fun _ => h.negative) fun _ => ?_
  exact .ite (by rw [isNext_respells hts (by decide)]) (fun _ => h.parenthesized)
    fun _ => term_alike

theorem negative_succ : ReadsAlike Formula.Respells (negativeWithin stop (depth + 1))
    (negativeWithin stop' (depth + 1)) := by
  rw [negativeWithin, negativeWithin]
  refine (expect_alike (by decide)).bind fun _ _ _ => ?_
  exact h.expression.bind fun f f' hf => .pure (.negative hf)

theorem parenthesized_succ : ReadsAlike Formula.Respells (parenthesizedWithin stop (depth + 1))
    (parenthesizedWithin stop' (depth + 1)) := by
  rw [parenthesizedWithin, parenthesizedWithin]
  refine (expect_alike (by decide)).bind fun _ _ _ => h.expression.bind fun f f' hf => ?_
  exact (expect_alike (by decide)).bind fun _ _ _ => .pure hf

theorem call_succ : ReadsAlike Formula.Respells (callWithin stop (depth + 1))
    (callWithin stop' (depth + 1)) := by
  rw [callWithin, callWithin]
  refine expectKind_alike.bind fun name name' hName => ?_
  have hSame := hName.1.name hName.2
  refine (expect_alike (by decide)).bind fun _ _ _ => Lockstep.get.bind fun ts ts' hts => ?_
  refine .ite (by rw [isNext_respells hts (by decide)]) (fun _ => ?_) fun _ => ?_
  · exact (expect_alike (by decide)).bind fun _ _ _ => .pure (.call hSame .nil)
  · exact h.arguments.bind fun fs fs' hfs => .pure (.call hSame hfs)

theorem arguments_succ : ReadsAlike Formula.RespellsAll (argumentsWithin stop (depth + 1))
    (argumentsWithin stop' (depth + 1)) := by
  rw [argumentsWithin, argumentsWithin]
  refine h.expression.bind fun f f' hf => (expect_alike (by decide)).bind fun t t' ht => ?_
  refine .ite ?_ (fun _ => ?_) fun _ => .pure (.cons hf .nil)
  · simp only [beq_iff_eq]
    exact ht.1.text_iff (by decide)
  · exact h.arguments.bind fun fs fs' hfs => .pure (.cons hf hfs)

end AlikeWithin

theorem alikeWithin (stop stop' depth : Nat) : AlikeWithin stop stop' depth := by
  induction depth with
  | zero =>
    constructor
    case chain => exact fun _ => .throw rfl
    all_goals exact .throw rfl
  | succ depth ih =>
    exact {
      expression := ih.expression_succ
      chain := ih.chain_succ
      operand := ih.operand_succ
      negative := ih.negative_succ
      parenthesized := ih.parenthesized_succ
      call := ih.call_succ
      arguments := ih.arguments_succ }

theorem expression_alike : ReadsAlike Formula.Respells (expression stop) (expression stop') := by
  intro ts ts' h
  have hDepth : depthFor ts' = depthFor ts := by rw [depthFor, depthFor, h.length_eq]
  unfold expression
  rw [hDepth]
  exact (alikeWithin stop stop' (depthFor ts)).expression ts ts' h

variable (stop stop') in
theorem complete_alike : ReadsAlike Formula.Respells (complete stop) (complete stop') := by
  refine expression_alike.bind fun f f' hf => Lockstep.get.bind fun ts ts' hts => ?_
  cases hts with
  | nil => exact .pure hf
  | cons => exact .throw rfl

end Reading

namespace Formula

theorem ofTokens_agrees {ts ts' : List Token} (h : List.Forall₂ Token.Respells ts ts') :
    Agrees SyntaxFault.SameKind Respells (ofTokens ts) (ofTokens ts') := by
  have hComplete := Reading.complete_alike (sourceEnd ts) (sourceEnd ts') ts ts' h
  unfold ofTokens
  generalize Reading.complete (sourceEnd ts) ts = r at hComplete ⊢
  generalize Reading.complete (sourceEnd ts') ts' = r' at hComplete ⊢
  cases hComplete with
  | ok hTree => exact .ok hTree
  | error hFault => exact .error hFault

/-- Texts in other spellings are read alike, or refused alike. -/
theorem parse_agrees {source source' : String} (h : RespellsIn source source') :
    Agrees SyntaxFault.SameKind Respells (parse source) (parse source') :=
  (scan_agrees h 0 0).bind fun _ _ => ofTokens_agrees

end Formula
end Spreadsheet
