import Spreadsheet.Proofs.Formula.Grouping

/-!
# The grammar that the reader accepts

`Derives` has one rule for each alternative of the grammar at the head of `Formula.Parser`. That
grammar is ambiguous: a chain after a minus sign may belong to the minus or to the expression around
it. The reader always gives it to the minus. It loses nothing by that, because a chain that is taken
over by an operand leaves a shorter chain, or none, to what comes after.
-/

set_option autoImplicit false

namespace Spreadsheet

open Number (Operation)

inductive Phrase where
  | expression
  | chain
  | operand
  | term
  | negative
  | call
  | arguments

/-- The tokens can be derived from a phrase of the grammar. -/
inductive Derives : Phrase → List Token → Prop
  -- expression := operand (operator operand)*
  | expression {first rest : List Token} (hFirst : Derives .operand first)
      (hRest : Derives .chain rest) : Derives .expression (first ++ rest)
  | chainEnd : Derives .chain []
  | chainNext {t : Token} {o : Operation} {operand rest : List Token} (hOperator : t.Operates o)
      (hOperand : Derives .operand operand) (hRest : Derives .chain rest) :
      Derives .chain (t :: (operand ++ rest))
  -- operand := call | negative | "(" expression ")" | term
  | operandCall {ts : List Token} (h : Derives .call ts) : Derives .operand ts
  | operandNegative {ts : List Token} (h : Derives .negative ts) : Derives .operand ts
  | parenthesized {opening closing : Token} {inside : List Token} (hOpening : opening.text = "(")
      (hInside : Derives .expression inside) (hClosing : closing.text = ")") :
      Derives .operand (opening :: (inside ++ [closing]))
  | operandTerm {ts : List Token} (h : Derives .term ts) : Derives .operand ts
  -- term := NUMBER | TEXT | CELL | CELL ":" CELL
  | number {t : Token} (hKind : t.kind = .number) : Derives .term [t]
  | text {t : Token} (hKind : t.kind = .text) : Derives .term [t]
  | cell {t : Token} (hKind : t.kind = .cell) : Derives .term [t]
  | range {first colon last : Token} (hFirst : first.kind = .cell) (hColon : colon.text = ":")
      (hLast : last.kind = .cell) : Derives .term [first, colon, last]
  -- negative := "-" expression
  | negative {t : Token} {operand : List Token} (hMinus : t.text = "-")
      (hOperand : Derives .expression operand) : Derives .negative (t :: operand)
  -- call := IDENTIFIER "(" (expression ("," expression)*)? ")"
  | callEmpty {name opening closing : Token} (hName : name.kind = .identifier)
      (hOpening : opening.text = "(") (hClosing : closing.text = ")") :
      Derives .call [name, opening, closing]
  | call {name opening closing : Token} {arguments : List Token} (hName : name.kind = .identifier)
      (hOpening : opening.text = "(") (hArguments : Derives .arguments arguments)
      (hClosing : closing.text = ")") :
      Derives .call (name :: opening :: (arguments ++ [closing]))
  | lastArgument {ts : List Token} (h : Derives .expression ts) : Derives .arguments ts
  | nextArgument {comma : Token} {first rest : List Token} (hFirst : Derives .expression first)
      (hComma : comma.text = ",") (hRest : Derives .arguments rest) :
      Derives .arguments (first ++ comma :: rest)

namespace Derives

variable {ts us : List Token}

theorem chain_append (h : Derives .chain ts) (hMore : Derives .chain us) :
    Derives .chain (ts ++ us) := by
  generalize hp : Phrase.chain = phrase at h
  induction h with
  | chainEnd => exact hMore
  | chainNext hOperator hOperand _ _ ihRest =>
    rw [List.cons_append, List.append_assoc]
    exact .chainNext hOperator hOperand (ihRest hp)
  | _ => cases hp

theorem expression_append (h : Derives .expression ts) (hMore : Derives .chain us) :
    Derives .expression (ts ++ us) := by
  cases h with
  | expression hFirst hRest =>
    rw [List.append_assoc]
    exact .expression hFirst (hRest.chain_append hMore)

end Derives

/-! ## What is read can be derived -/

namespace Layer

variable {ts us : List Token} {f : Formula} {layer : Layer}

/-- What a layer takes from the front of the tokens. -/
def Takes : Layer → List Token → Prop
  | expression, ts | term, ts => Derives .expression ts
  | sum _, ts | product _, ts => Derives .chain ts
  | operand, ts => Derives .operand ts
  | arguments _ _, ts => ∃ inside closing, ts = inside ++ [closing] ∧
      Derives .arguments inside ∧ closing.text = ")"

theorem Reads.takes (h : Reads layer ts f us) : ∃ taken, ts = taken ++ us ∧ layer.Takes taken := by
  induction h with
  | expression _ _ ihTerm ihSum =>
    obtain ⟨first, rfl, hFirst⟩ := ihTerm
    obtain ⟨rest, rfl, hRest⟩ := ihSum
    exact ⟨first ++ rest, (List.append_assoc _ _ _).symm, Derives.expression_append hFirst hRest⟩
  | term _ _ ihOperand ihProduct =>
    obtain ⟨first, rfl, hFirst⟩ := ihOperand
    obtain ⟨rest, rfl, hRest⟩ := ihProduct
    exact ⟨first ++ rest, (List.append_assoc _ _ _).symm, .expression hFirst hRest⟩
  | @add t _ _ _ _ _ _ _ hOperator _ _ _ ihTerm ihSum =>
    obtain ⟨first, rfl, hFirst⟩ := ihTerm
    obtain ⟨rest, rfl, hRest⟩ := ihSum
    cases hFirst with
    | @expression operand chain hOperand hChain =>
      refine ⟨t :: (operand ++ (chain ++ rest)), by simp, ?_⟩
      exact .chainNext hOperator hOperand (hChain.chain_append hRest)
  | @multiply t _ _ _ _ _ _ _ hOperator _ _ _ ihOperand ihProduct =>
    obtain ⟨first, rfl, hFirst⟩ := ihOperand
    obtain ⟨rest, rfl, hRest⟩ := ihProduct
    exact ⟨t :: (first ++ rest), by simp, .chainNext hOperator hFirst hRest⟩
  | sumEnd | productEnd => exact ⟨[], rfl, .chainEnd⟩
  | @number t _ hKind => exact ⟨[t], rfl, .operandTerm (.number hKind)⟩
  | @text t _ hKind => exact ⟨[t], rfl, .operandTerm (.text hKind)⟩
  | @cell t _ hKind => exact ⟨[t], rfl, .operandTerm (.cell hKind)⟩
  | @range first colon last _ hFirst hColon hLast =>
    exact ⟨[first, colon, last], rfl, .operandTerm (.range hFirst hColon hLast)⟩
  | @negative t _ _ _ hMinus _ ih =>
    obtain ⟨taken, rfl, hTaken⟩ := ih
    exact ⟨t :: taken, rfl, .operandNegative (.negative hMinus hTaken)⟩
  | @parenthesized opening closing _ _ _ hOpening _ hClosing ih =>
    obtain ⟨taken, rfl, hTaken⟩ := ih
    exact ⟨opening :: (taken ++ [closing]), by simp, .parenthesized hOpening hTaken hClosing⟩
  | @callEmpty name opening closing _ hName hOpening hClosing =>
    exact ⟨[name, opening, closing], rfl, .operandCall (.callEmpty hName hOpening hClosing)⟩
  | @call name opening _ _ _ hName hOpening _ ih =>
    obtain ⟨-, rfl, inside, closing, rfl, hInside, hClosing⟩ := ih
    exact ⟨name :: opening :: (inside ++ [closing]), by simp,
      .operandCall (.call hName hOpening hInside hClosing)⟩
  | @next _ _ comma _ _ _ _ _ _ hComma _ ihArgument ihArguments =>
    obtain ⟨first, rfl, hFirst⟩ := ihArgument
    obtain ⟨-, rfl, inside, closing, rfl, hInside, hClosing⟩ := ihArguments
    exact ⟨first ++ comma :: inside ++ [closing], by simp, first ++ comma :: inside, closing, rfl,
      .nextArgument hFirst hComma hInside, hClosing⟩
  | @last _ _ closing _ _ _ _ hClosing ih =>
    obtain ⟨first, rfl, hFirst⟩ := ih
    exact ⟨first ++ [closing], by simp, first, closing, rfl, .lastArgument hFirst, hClosing⟩

end Layer

/-! ## What can be derived is read -/

/-- No chain goes on here, and no range. -/
def Halts (ts : List Token) : Prop := ∀ t rest, ts = t :: rest → t.text = ")" ∨ t.text = ","

namespace Halts

variable {t : Token} {o : Operation} {ts : List Token}

theorem nil : Halts [] := nofun

theorem cons (h : t.text = ")" ∨ t.text = ",") : Halts (t :: ts) := by
  rintro _ _ ⟨⟩
  exact h

theorem symbol_ne (o : Operation) : o.symbol ≠ ")" ∧ o.symbol ≠ "," ∧ o.symbol ≠ ":" := by
  cases o <;> decide

theorem stops (h : Halts ts) (level : Nat) : Layer.Stops level ts := by
  rintro t rest o rfl ⟨-, hText⟩
  obtain ⟨hClosing, hComma, -⟩ := symbol_ne o
  rcases h t rest rfl with hEnd | hEnd
  · exact absurd (hText.symm.trans hEnd) hClosing
  · exact absurd (hText.symm.trans hEnd) hComma

end Halts

theorem Token.Operates.unique {t : Token} {o o' : Operation} (h : t.Operates o)
    (h' : t.Operates o') : o = o' := by
  have hSymbol := h.2.symm.trans h'.2
  revert hSymbol
  cases o <;> cases o' <;> decide

variable {n : Nat} {ts us rest : List Token} {t : Token} {f : Formula}

/-- A cell before a chain is no range. -/
theorem Derives.alone (h : Derives .chain us) (hHalts : Halts rest) :
    ∀ colon r, us ++ rest = colon :: r → colon.text ≠ ":" := by
  intro colon r hText
  cases h with
  | chainEnd =>
    rcases hHalts colon r hText with hEnd | hEnd <;> rw [hEnd] <;> decide
  | @chainNext t o _ _ hOperator =>
    cases hText
    rw [hOperator.2]
    exact (Halts.symbol_ne o).2.2

/-- Operands are read, as far as the tokens of the operand and of the chain after it are so many. An
operand may take over the chain; what it leaves is a chain again. -/
def Complete (n : Nat) : Prop :=
  ∀ ts us rest, Derives .operand ts → Derives .chain us → Halts rest → ts.length + us.length ≤ n →
    ∃ f vs, Layer.Reads .operand (ts ++ (us ++ rest)) f (vs ++ rest) ∧ Derives .chain vs ∧
      vs.length ≤ us.length

theorem Complete.product (h : Complete n) (hHalts : Halts rest) (hChain : Derives .chain us)
    (hLength : us.length ≤ n) (left : Formula) :
    ∃ f vs, Layer.Reads (.product left) (us ++ rest) f (vs ++ rest) ∧ Derives .chain vs ∧
      vs.length ≤ us.length ∧ Layer.Stops 2 (vs ++ rest) := by
  -- on the length: an operand may leave another chain than the one that was derived after it
  induction hk : us.length using Nat.strongRecOn generalizing us left with
  | _ k ih =>
    subst hk
    cases hChain with
    | chainEnd =>
      have hStops := hHalts.stops 2
      exact ⟨left, [], .productEnd hStops, .chainEnd, Nat.le_refl _, hStops⟩
    | @chainNext t o operand us hOperator hOperand hRest =>
      rw [List.length_cons, List.length_append] at hLength
      rcases Reading.level_eq o with hLevel | hLevel
      · have hStops : Layer.Stops 2 (t :: (operand ++ us) ++ rest) := by
          rintro t' _ o' ⟨⟩ hOperator'
          rw [← hOperator.unique hOperator', hLevel]
          decide
        exact ⟨left, _, .productEnd hStops, .chainNext hOperator hOperand hRest, Nat.le_refl _,
          hStops⟩
      · obtain ⟨f, vs, hReads, hVs, hShorter⟩ := h operand us rest hOperand hRest hHalts (by omega)
        obtain ⟨g, ws, hProduct, hWs, hShortest, hStops⟩ := ih vs.length
          (by simp only [List.length_cons, List.length_append]; omega) hVs (by omega)
          (.binary o left f) rfl
        refine ⟨g, ws, ?_, hWs, ?_, hStops⟩
        · rw [List.cons_append, List.append_assoc]
          exact .multiply hOperator hLevel hReads hProduct
        · simp only [List.length_cons, List.length_append]
          omega

theorem Complete.sum (h : Complete n) (hHalts : Halts rest) (hChain : Derives .chain us)
    (hLength : us.length ≤ n) (hStops : Layer.Stops 2 (us ++ rest)) (left : Formula) :
    ∃ f, Layer.Reads (.sum left) (us ++ rest) f rest := by
  induction hk : us.length using Nat.strongRecOn generalizing us left with
  | _ k ih =>
    subst hk
    cases hChain with
    | chainEnd => exact ⟨left, .sumEnd (hHalts.stops 1)⟩
    | @chainNext t o operand us hOperator hOperand hRest =>
      rw [List.length_cons, List.length_append] at hLength
      have hLevel : o.level = 1 := by
        have hNot := hStops t _ o rfl hOperator
        rcases Reading.level_eq o with hLevel | hLevel
        · exact hLevel
        · exact absurd hLevel hNot
      obtain ⟨f, vs, hReads, hVs, hShorter⟩ := h operand us rest hOperand hRest hHalts (by omega)
      obtain ⟨g, ws, hProduct, hWs, hShortest, hStops⟩ := h.product hHalts hVs (by omega) f
      obtain ⟨result, hSum⟩ := ih ws.length
        (by simp only [List.length_cons, List.length_append]; omega) hWs (by omega) hStops
        (.binary o left g) rfl
      refine ⟨result, ?_⟩
      rw [List.cons_append, List.append_assoc]
      exact .add hOperator hLevel (.term hReads hProduct) hSum

/-- An expression is read together with a chain that comes after it. -/
theorem Complete.expression (h : Complete n) (hHalts : Halts rest)
    (hExpression : Derives .expression ts) (hChain : Derives .chain us)
    (hLength : ts.length + us.length ≤ n) :
    ∃ f, Layer.Reads .expression (ts ++ (us ++ rest)) f rest := by
  cases hExpression with
  | @expression first more hFirst hMore =>
    rw [List.length_append] at hLength
    have hAll := hMore.chain_append hChain
    have hAllLength : (more ++ us).length ≤ n - first.length := by
      rw [List.length_append]
      omega
    obtain ⟨f, vs, hReads, hVs, hShorter⟩ := h first (more ++ us) rest hFirst hAll hHalts
      (by rw [List.length_append]; omega)
    obtain ⟨g, ws, hProduct, hWs, hShortest, hStops⟩ := h.product hHalts hVs (by omega) f
    obtain ⟨result, hSum⟩ := h.sum hHalts hWs (by omega) hStops g
    refine ⟨result, ?_⟩
    have hText : first ++ more ++ (us ++ rest) = first ++ (more ++ us ++ rest) := by simp
    rw [hText]
    exact .expression (.term hReads hProduct) hSum

theorem Complete.expression_alone (h : Complete n) (hHalts : Halts rest)
    (hExpression : Derives .expression ts) (hLength : ts.length ≤ n) :
    ∃ f, Layer.Reads .expression (ts ++ rest) f rest :=
  h.expression hHalts hExpression .chainEnd hLength

theorem Complete.arguments (h : Complete n) (hArguments : Derives .arguments ts) {closing : Token}
    (hClosing : closing.text = ")") (hLength : ts.length ≤ n) (function : String)
    (before : List Formula) (rest : List Token) :
    ∃ f, Layer.Reads (.arguments function before) (ts ++ closing :: rest) f rest := by
  generalize hp : Phrase.arguments = phrase at hArguments
  induction hArguments generalizing before with
  | lastArgument hFirst _ =>
    obtain ⟨f, hReads⟩ := h.expression_alone (.cons (.inl hClosing)) hFirst hLength
    exact ⟨_, .last hReads hClosing⟩
  | @nextArgument comma first more hFirst hComma _ _ ih =>
    simp only [List.length_append, List.length_cons] at hLength
    have hHalts : Halts (comma :: (more ++ closing :: rest)) := .cons (.inr hComma)
    obtain ⟨f, hReads⟩ := h.expression_alone hHalts hFirst (by omega)
    obtain ⟨g, hRest⟩ := ih (by omega) (before ++ [f]) hp
    refine ⟨g, ?_⟩
    rw [List.append_assoc]
    exact .next hReads hComma hRest
  | _ => cases hp

theorem reads_term (hTerm : Derives .term ts) (hChain : Derives .chain us) (hHalts : Halts rest) :
    ∃ f, Layer.Reads .operand (ts ++ (us ++ rest)) f (us ++ rest) := by
  cases hTerm with
  | number hKind => exact ⟨_, .number hKind⟩
  | text hKind => exact ⟨_, .text hKind⟩
  | cell hKind => exact ⟨_, .cell hKind (hChain.alone hHalts)⟩
  | range hFirst hColon hLast => exact ⟨_, .range hFirst hColon hLast⟩

theorem Complete.call (h : Complete n) (hCall : Derives .call ts) (hLength : ts.length ≤ n + 1)
    (rest : List Token) : ∃ f, Layer.Reads .operand (ts ++ rest) f rest := by
  cases hCall with
  | callEmpty hName hOpening hClosing => exact ⟨_, .callEmpty hName hOpening hClosing⟩
  | @call name opening closing arguments hName hOpening hArguments hClosing =>
    simp only [List.length_cons, List.length_append] at hLength
    obtain ⟨f, hReads⟩ := h.arguments hArguments hClosing (by omega) name.text [] rest
    refine ⟨f, ?_⟩
    simp only [List.cons_append, List.append_assoc, List.nil_append]
    exact .call hName hOpening hReads

theorem Complete.succ (h : Complete n) : Complete (n + 1) := by
  intro ts us rest hOperand hChain hHalts hLength
  cases hOperand with
  | operandTerm hTerm =>
    obtain ⟨f, hReads⟩ := reads_term hTerm hChain hHalts
    exact ⟨f, us, hReads, hChain, Nat.le_refl _⟩
  | operandCall hCall =>
    obtain ⟨f, hReads⟩ := h.call hCall (by omega) (us ++ rest)
    exact ⟨f, us, hReads, hChain, Nat.le_refl _⟩
  | operandNegative hNegative =>
    cases hNegative with
    | @negative t operand hMinus hExpression =>
      -- the minus takes over the whole chain
      rw [List.length_cons] at hLength
      obtain ⟨f, hReads⟩ := h.expression hHalts hExpression hChain (by omega)
      exact ⟨_, [], .negative hMinus hReads, .chainEnd, Nat.zero_le _⟩
  | @parenthesized opening closing inside hOpening hInside hClosing =>
    simp only [List.length_cons, List.length_append] at hLength
    have hClosed : Halts (closing :: (us ++ rest)) := .cons (.inl hClosing)
    obtain ⟨f, hReads⟩ := h.expression_alone hClosed hInside (by omega)
    refine ⟨f, us, ?_, hChain, Nat.le_refl _⟩
    have hText : opening :: (inside ++ [closing]) ++ (us ++ rest) =
        opening :: (inside ++ closing :: (us ++ rest)) := by simp
    rw [hText]
    exact .parenthesized hOpening hReads hClosing

theorem Derives.operand_length_pos (h : Derives .operand ts) : 0 < ts.length := by
  cases h with
  | operandCall h => cases h <;> simp
  | operandNegative h => cases h; simp
  | parenthesized => simp
  | operandTerm h => cases h <;> simp

theorem complete (n : Nat) : Complete n := by
  induction n with
  | zero =>
    intro ts us rest hOperand _ _ hLength
    have hPos := hOperand.operand_length_pos
    omega
  | succ n ih => exact ih.succ

theorem derives_iff_reads : Derives .expression ts ↔ ∃ f, Layer.Reads .expression ts f [] := by
  constructor
  · intro h
    obtain ⟨f, hReads⟩ := (complete ts.length).expression_alone .nil h (Nat.le_refl _)
    rw [List.append_nil] at hReads
    exact ⟨f, hReads⟩
  · rintro ⟨f, hReads⟩
    obtain ⟨taken, hText, hTaken⟩ := hReads.takes
    rw [List.append_nil] at hText
    rw [hText]
    exact hTaken

namespace Formula

/-- A text is read as a formula exactly when its tokens can be derived in the grammar, and then all
of them have been read. -/
theorem ofTokens_accepts {source : String} {tokens : List Token}
    (h : tokenize source = .ok tokens) :
    ((∃ f, ofTokens tokens = .ok f) ↔ Derives .expression tokens) ∧
      ∀ f, ofTokens tokens = .ok f → Reading.complete (sourceEnd tokens) tokens = .ok f [] := by
  have hLexed := areLexed_of_tokenize h
  constructor
  · rw [derives_iff_reads]
    constructor
    · rintro ⟨f, hRun⟩
      exact ⟨f, (ofTokens_eq_ok hLexed).mp hRun⟩
    · rintro ⟨f, hReads⟩
      exact ⟨f, (ofTokens_eq_ok hLexed).mpr hReads⟩
  · intro f hRun
    unfold ofTokens at hRun
    split at hRun
    · rename_i g rest hComplete
      cases hRun
      obtain ⟨-, rfl⟩ := Reading.complete_eq_ok.mp hComplete
      exact hComplete
    · cases hRun

/-- The chain after the minus could as well belong to the expression around it. -/
theorem ofTokens_accepts_minus : ∃ tokens, tokenize "-F(A1:B2)*2-(3)" = .ok tokens ∧
    Derives .expression tokens ∧
    ∃ f, Reading.complete (sourceEnd tokens) tokens = .ok f [] := by
  let tokens : List Token := [⟨.operator, "-", 0⟩, ⟨.identifier, "F", 1⟩, ⟨.punctuation, "(", 2⟩,
    ⟨.cell, "A1", 3⟩, ⟨.punctuation, ":", 5⟩, ⟨.cell, "B2", 6⟩, ⟨.punctuation, ")", 8⟩,
    ⟨.operator, "*", 9⟩, ⟨.number, "2", 10⟩, ⟨.operator, "-", 11⟩, ⟨.punctuation, "(", 12⟩,
    ⟨.number, "3", 13⟩, ⟨.punctuation, ")", 14⟩]
  let f : Formula := .negative (.binary .subtract (.binary .multiply (.call "F" [.range "A1" "B2"])
    (.number "2")) (.number "3"))
  have hTokens : tokenize "-F(A1:B2)*2-(3)" = .ok tokens := by cbv
  have hRun : ofTokens tokens = .ok f := by rfl
  obtain ⟨hAccepts, hAll⟩ := ofTokens_accepts hTokens
  exact ⟨tokens, hTokens, hAccepts.mp ⟨f, hRun⟩, f, hAll f hRun⟩

end Formula
end Spreadsheet
