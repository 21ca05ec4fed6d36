import Spreadsheet.Proofs.Formula.Refusal

/-!
# Reducing a postfix list

A postfix list is reduced from its end. A reduction takes the postfix form of a tree of operations
and leaves what is in front of it; a list that ends in no such form runs out of operands, or has a
symbol that is no operator. The lists that the reader builds never do: the operators that wait are
operators of the table, and the list that an expression ends with is the postfix form of its tree.
-/

set_option autoImplicit false

namespace Spreadsheet

open Number (Operation)

/-- A tree of operations over operands. -/
inductive OperationTree where
  | operand (f : Formula)
  | operation (o : Operation) (left right : OperationTree)

namespace OperationTree

/-- The postfix form of a tree, from its front. -/
def items : OperationTree → List PostfixItem
  | operand f => [.operand f]
  | operation o left right => left.items ++ right.items ++ [.operator o.symbol]

def formula : OperationTree → Formula
  | operand f => f
  | operation o left right => .binary o left.formula right.formula

end OperationTree

namespace Reading

variable {f : Formula} {fault : SyntaxFault} {depth : Nat} {items rest : List PostfixItem}

/-! ## Postfix forms and trees -/

theorem encodes_items (t : OperationTree) : Encodes t.items.reverse t.formula := by
  induction t with
  | operand f => exact .operand f
  | operation o left right ihLeft ihRight =>
    have hItems : (OperationTree.operation o left right).items.reverse =
        .operator o.symbol :: (right.items.reverse ++ left.items.reverse) := by
      simp [OperationTree.items]
    rw [hItems]
    exact .operator o ihLeft ihRight

theorem Encodes.exists_tree (h : Encodes items f) :
    ∃ t : OperationTree, t.items.reverse = items ∧ t.formula = f := by
  induction h with
  | operand f => exact ⟨.operand f, rfl, rfl⟩
  | operator o _ _ ihLeft ihRight =>
    obtain ⟨left, rfl, rfl⟩ := ihLeft
    obtain ⟨right, rfl, rfl⟩ := ihRight
    exact ⟨.operation o left right, by simp [OperationTree.items], rfl⟩

/-! ## What a reduction takes -/

/-- What an operator makes of its reduced operands. -/
def applied (symbol : String) (left right : Formula) :
    EStateM SyntaxFault (List PostfixItem) Formula :=
  match Operation.ofSymbol? symbol with
  | some o => pure (.binary o left right)
  | none => throw (.unknownOperator symbol)

theorem reduce_operator (symbol : String) (items : List PostfixItem) :
    reduce (depth + 1) (.operator symbol :: items) =
      (reduce depth >>= fun right => reduce depth >>= fun left => applied symbol left right)
        items := rfl

theorem applied_eq_ok {symbol : String} {left right : Formula} :
    applied symbol left right items = .ok f rest ↔
      ∃ o : Operation, symbol = o.symbol ∧ f = .binary o left right ∧ items = rest := by
  unfold applied
  cases hSymbol : Operation.ofSymbol? symbol with
  | none =>
    simp only [throw_ne_ok, false_iff, not_exists]
    rintro o ⟨hText, -⟩
    rw [ofSymbol?_eq_some.mpr hText] at hSymbol
    cases hSymbol
  | some o =>
    obtain rfl := ofSymbol?_eq_some.mp hSymbol
    rw [pure_eq_ok]
    constructor
    · rintro ⟨rfl, rfl⟩
      exact ⟨o, rfl, rfl, rfl⟩
    · rintro ⟨o', hText, rfl, rfl⟩
      rw [ofSymbol?_eq_some.mpr hText, Option.some.injEq] at hSymbol
      rw [hSymbol]
      exact ⟨rfl, rfl⟩

/-- What a reduction has taken is the postfix form of what it gives. -/
theorem encodes_of_reduce (h : reduce depth items = .ok f rest) :
    ∃ taken, items = taken ++ rest ∧ Encodes taken f := by
  induction depth generalizing items f rest with
  | zero => cases h
  | succ depth ih =>
    cases items with
    | nil => cases h
    | cons item items =>
      cases item with
      | operand g =>
        cases h
        exact ⟨[.operand f], rfl, .operand f⟩
      | operator symbol =>
        rw [reduce_operator, bind_eq_ok] at h
        obtain ⟨right, between, hRight, h⟩ := h
        obtain ⟨left, rest', hLeft, h⟩ := bind_eq_ok.mp h
        obtain ⟨o, rfl, rfl, rfl⟩ := applied_eq_ok.mp h
        obtain ⟨takenRight, rfl, hTakenRight⟩ := ih hRight
        obtain ⟨takenLeft, rfl, hTakenLeft⟩ := ih hLeft
        exact ⟨.operator o.symbol :: (takenRight ++ takenLeft), by simp,
          .operator o hTakenLeft hTakenRight⟩

/-- A reduction fails for the list alone: it runs out, or an operator is unknown. -/
theorem fault_of_reduce (h : reduce depth items = .error fault rest) :
    fault = .incomplete ∨ ∃ symbol, fault = .unknownOperator symbol := by
  induction depth generalizing items rest with
  | zero =>
    cases h
    exact .inl rfl
  | succ depth ih =>
    cases items with
    | nil =>
      cases h
      exact .inl rfl
    | cons item items =>
      cases item with
      | operand g => cases h
      | operator symbol =>
        rw [reduce_operator, bind_eq_error] at h
        rcases h with hRight | ⟨right, between, -, h⟩
        · exact ih hRight
        rcases bind_eq_error.mp h with hLeft | ⟨left, rest', -, h⟩
        · exact ih hLeft
        rw [applied] at h
        cases hSymbol : Operation.ofSymbol? symbol with
        | some o =>
          simp only [hSymbol] at h
          exact absurd h pure_ne_error
        | none =>
          simp only [hSymbol] at h
          obtain ⟨rfl, -⟩ := throw_eq_error.mp h
          exact .inr ⟨symbol, rfl⟩

/-- A list cannot be reduced exactly when no postfix form stands at its end. -/
theorem reduce_fails_iff (hDepth : items.length ≤ depth) :
    (∃ fault rest, reduce depth items = .error fault rest) ↔
      ∀ taken rest f, items = taken ++ rest → ¬ Encodes taken f := by
  constructor
  · rintro ⟨fault, left, hFails⟩ taken rest f rfl hEncodes
    have hTaken : taken.length ≤ depth := by
      rw [List.length_append] at hDepth
      omega
    rw [hEncodes.reduce rest hTaken] at hFails
    cases hFails
  · intro hNone
    cases hRun : reduce depth items with
    | ok f rest =>
      obtain ⟨taken, hItems, hEncodes⟩ := encodes_of_reduce hRun
      exact absurd hEncodes (hNone taken rest f hItems)
    | error fault rest => exact ⟨fault, rest, rfl⟩

/-! ## Operators that wait as tokens -/

/-- Why the loop over the operators of an expression ends: as the reader does, or at an operator
that has no level. -/
inductive LoopFault where
  | reading (fault : SyntaxFault)
  | noLevel (symbol : String)

def levels : List (String × Nat) := [("*", 2), ("/", 2), ("+", 1), ("-", 1)]

def levelOf (t : Token) : Except LoopFault Nat :=
  match levels.lookup t.text with
  | some level => .ok level
  | none => .error (.noLevel t.text)

/-- Moves the waiting operators that bind at least as tightly as `t` to the postfix list. -/
def unwindTokens (t : Token) :
    List Token → List PostfixItem → Except LoopFault (List Token × List PostfixItem)
  | [], items => .ok ([], items)
  | top :: waiting, items => do
    if (← levelOf t) ≤ (← levelOf top) then unwindTokens t waiting (.operator top.text :: items)
    else return (top :: waiting, items)

def inLoop {α : Type} (x : Reading α) : EStateM LoopFault (List Token) α := fun ts =>
  match x ts with
  | .ok a us => .ok a us
  | .error fault us => .error (.reading fault) us

/-- The rest of an expression, after an operand; the levels of the operators are looked up. -/
def loopWithin (stop : Nat) :
    Nat → List Token → List PostfixItem → EStateM LoopFault (List Token) Formula
  | 0, _, _ => throw (.reading .incomplete)
  | depth + 1, waiting, items => do
    let ts ← get
    if isNextKind .operator ts && isNext operatorSymbols ts then
      let t ← inLoop (expect stop operatorSymbols)
      match unwindTokens t waiting items with
      | .ok (waiting, items) =>
        let f ← inLoop (operandWithin stop depth)
        loopWithin stop depth (t :: waiting) (.operand f :: items)
      | .error fault => throw fault
    else inLoop (finish (waiting.foldl (fun items t => .operator t.text :: items) items))

section

variable {α β : Type} {o : Operation} {t : Token} {ts us : List Token} {stop : Nat}
  {tokens : List Token} {waiting : List Operation}

theorem inLoop_bind (x : Reading α) (k : α → Reading β) :
    inLoop (x >>= k) = inLoop x >>= fun a => inLoop (k a) := by
  funext ts
  change inLoop (EStateM.bind x k) ts = EStateM.bind (inLoop x) (fun a => inLoop (k a)) ts
  rw [EStateM.bind, inLoop, inLoop, EStateM.bind]
  cases x ts <;> rfl

theorem inLoop_of_ok {x : Reading α} {a : α} (h : x ts = .ok a us) : inLoop x ts = .ok a us := by
  rw [inLoop, h]

theorem levelOf_of_operates (h : t.Operates o) : levelOf t = .ok o.level := by
  rw [levelOf, h.2]
  cases o <;> rfl

theorem mem_operatorSymbols (o : Operation) : o.symbol ∈ operatorSymbols := by
  cases o <;> decide

/-- An operator comes next exactly when the token is one by its kind and by its spelling. -/
theorem nextOperation?_eq_none (h : nextOperation? ts = none) :
    (isNextKind .operator ts && isNext operatorSymbols ts) = false := by
  cases ts with
  | nil => rfl
  | cons t rest =>
    by_contra hNext
    simp only [Bool.not_eq_false, Bool.and_eq_true, isNextKind_cons, isNext_eq_true] at hNext
    obtain ⟨hKind, _, _, ⟨⟩, hText⟩ := hNext
    have hOperates : ∃ o : Operation, t.text = o.symbol := by
      simp only [operatorSymbols, List.mem_cons, List.not_mem_nil, or_false] at hText
      rcases hText with h | h | h | h
      exacts [⟨.multiply, h⟩, ⟨.divide, h⟩, ⟨.add, h⟩, ⟨.subtract, h⟩]
    obtain ⟨o, ho⟩ := hOperates
    rw [nextOperation?_cons.mpr ⟨hKind, ho⟩] at h
    cases h

theorem unwindTokens_of_operates (ht : t.Operates o)
    (h : List.Forall₂ Token.Operates tokens waiting) (items : List PostfixItem) :
    ∃ below, unwindTokens t tokens items = .ok (below, (unwind o waiting items).2) ∧
      List.Forall₂ Token.Operates below (unwind o waiting items).1 := by
  induction h generalizing items with
  | nil => exact ⟨[], rfl, .nil⟩
  | @cons top o' tokens waiting hTop hRest ih =>
    rw [unwindTokens, levelOf_of_operates ht, levelOf_of_operates hTop]
    change ∃ below, (if o.level ≤ o'.level then _ else _) = _ ∧ _
    rw [unwind]
    by_cases hLevel : o.level ≤ o'.level
    · rw [if_pos hLevel, if_pos hLevel, hTop.2]
      exact ih _
    · rw [if_neg hLevel, if_neg hLevel]
      exact ⟨_, rfl, .cons hTop hRest⟩

theorem foldl_of_operates (h : List.Forall₂ Token.Operates tokens waiting)
    (items : List PostfixItem) :
    tokens.foldl (fun items t => .operator t.text :: items) items = unwindAll waiting items := by
  induction h generalizing items with
  | nil => rfl
  | cons ht _ ih => rw [List.foldl_cons, ht.2, ih, unwindAll, unwindAll, List.foldl_cons]

/-- The loop does what the reader does, so it finds a level for every operator. -/
theorem loop_eq_chain (h : List.Forall₂ Token.Operates tokens waiting)
    (items : List PostfixItem) :
    loopWithin stop depth tokens items = inLoop (chainWithin stop depth waiting items) := by
  induction depth generalizing tokens waiting items with
  | zero => rfl
  | succ depth ih =>
    funext ts
    rw [loopWithin, bind_of_ok (get_run ts)]
    cases hNext : nextOperation? ts with
    | none =>
      rw [nextOperation?_eq_none hNext, if_neg Bool.false_ne_true, foldl_of_operates h, inLoop,
        inLoop, chain_of_none hNext]
    | some o =>
      obtain ⟨t, rest, rfl, ht⟩ := exists_of_nextOperation? hNext
      have hMem : t.text ∈ operatorSymbols := ht.2 ▸ mem_operatorSymbols o
      have hTaken : inLoop (expect stop operatorSymbols) (t :: rest) = .ok t rest :=
        inLoop_of_ok (expect_eq_ok.mpr ⟨rfl, hMem⟩)
      have hIs : (isNextKind .operator (t :: rest) &&
          isNext operatorSymbols (t :: rest)) = true := by
        rw [Bool.and_eq_true, isNextKind_cons, isNext_eq_true]
        exact ⟨ht.1, t, rest, rfl, hMem⟩
      obtain ⟨below, hUnwind, hBelow⟩ := unwindTokens_of_operates ht h items
      have hRest : ∀ f, loopWithin stop depth (t :: below)
          (.operand f :: (unwind o waiting items).2) = _ := fun f => ih (.cons ht hBelow) _
      rw [if_pos hIs, bind_of_ok hTaken, hUnwind]
      simp only [hRest]
      rw [← inLoop_bind, inLoop, inLoop, chain_of_operates ht]

end

/-! ## Any tokens -/

/-- Whatever the tokens are, they are read, or refused at a token or at their end. -/
theorem ofTokens_ends (tokens : List Token) :
    (∃ f, Formula.ofTokens tokens = .ok f) ∨
    (∃ expected found, Formula.ofTokens tokens = .error (.unexpectedToken expected found)) ∨
    Formula.ofTokens tokens = .error (.unexpectedEnd (sourceEnd tokens)) := by
  unfold Formula.ofTokens
  cases hRun : complete (sourceEnd tokens) tokens with
  | ok f us => exact .inl ⟨f, rfl⟩
  | error fault us =>
    rcases complete_eq_error.mp hRun with hExpression | ⟨f, t, rest, -, rfl, -⟩
    · cases (refuses _ _).expression (Nat.le_succ _) hExpression with
      | atToken => exact .inr (.inl ⟨_, _, rfl⟩)
      | atEnd => exact .inr (.inr rfl)
    · exact .inr (.inl ⟨_, _, rfl⟩)

/-- Behind any items the postfix form of a tree is reduced to its formula and the items are left,
and a list is malformed exactly when it ends in no postfix form. No tokens come to that: the loop
that looks the operators up finds each of them, and the list it ends with can be reduced. -/
theorem reduce_takes_postfix_form :
    (∀ (before : List PostfixItem) (t : OperationTree) (more : Nat),
      reduce ((before ++ t.items).length + more) (before ++ t.items).reverse =
        .ok t.formula before.reverse) ∧
    (∀ (items : List PostfixItem) (more : Nat),
      (∃ fault rest, reduce (items.length + more) items.reverse = .error fault rest ∧
        fault.kindName = "MalformedExpressionError") ↔
      ∀ (before : List PostfixItem) (t : OperationTree), items ≠ before ++ t.items) ∧
    (∀ tokens : List Token, (∃ f, Formula.ofTokens tokens = .ok f) ∨
      (∃ expected found, Formula.ofTokens tokens = .error (.unexpectedToken expected found)) ∨
      Formula.ofTokens tokens = .error (.unexpectedEnd (sourceEnd tokens))) ∧
    ∀ stop depth, inLoop (expressionWithin stop (depth + 1)) =
      inLoop (operandWithin stop depth) >>= fun f => loopWithin stop depth [] [.operand f] := by
  refine ⟨fun before t more => ?_, fun items more => ?_, ofTokens_ends, fun stop depth => ?_⟩
  · rw [List.reverse_append]
    apply (encodes_items t).reduce
    simp only [List.length_append, List.length_reverse]
    omega
  · have hDepth : items.reverse.length ≤ items.length + more := by simp
    have hFails : (∃ fault rest, reduce (items.length + more) items.reverse = .error fault rest ∧
        fault.kindName = "MalformedExpressionError") ↔
        ∃ fault rest, reduce (items.length + more) items.reverse = .error fault rest := by
      constructor
      · rintro ⟨fault, rest, hRun, -⟩
        exact ⟨fault, rest, hRun⟩
      · rintro ⟨fault, rest, hRun⟩
        refine ⟨fault, rest, hRun, ?_⟩
        rcases fault_of_reduce hRun with rfl | ⟨symbol, rfl⟩ <;> rfl
    rw [hFails, reduce_fails_iff hDepth]
    constructor
    · rintro hNone before t rfl
      exact hNone _ _ _ List.reverse_append (encodes_items t)
    · rintro hNone taken rest f hItems hEncodes
      obtain ⟨t, rfl, -⟩ := hEncodes.exists_tree
      apply hNone rest.reverse t
      rw [← List.reverse_reverse items, hItems, List.reverse_append, List.reverse_reverse]
  · simp only [expressionWithin, inLoop_bind, loop_eq_chain .nil]

end Reading
end Spreadsheet
