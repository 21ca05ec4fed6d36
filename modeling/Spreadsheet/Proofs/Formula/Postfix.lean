import Spreadsheet.Formula.Parser

/-!
# The stacks of a chain of operands

What the postfix list and the waiting operators stand for while a chain is read. The list is made of
postfix forms, and at most one operator of each level waits: below, the sum so far with its
operator, and above it the product so far. `Stacks` is that invariant; unwinding an operator closes
the product, or the product and the sum, and the last postfix list reduces to the formula that it is
the form of.
-/

set_option autoImplicit false

namespace Spreadsheet.Reading

open Number (Operation)

variable {α β : Type} {o : Operation}

/-! ## Running a step -/

section

variable {ε σ : Type} {s s' : σ} {a : α} {b : β}

theorem bind_of_ok {x : EStateM ε σ α} {k : α → EStateM ε σ β} (h : x s = .ok a s') :
    (x >>= k) s = k a s' := by
  change EStateM.bind x k s = _
  rw [EStateM.bind, h]

theorem bind_eq_ok {x : EStateM ε σ α} {k : α → EStateM ε σ β} :
    (x >>= k) s = .ok b s' ↔ ∃ a r, x s = .ok a r ∧ k a r = .ok b s' := by
  change EStateM.bind x k s = _ ↔ _
  cases h : x s with
  | ok a r =>
    rw [EStateM.bind, h]
    exact ⟨fun hk => ⟨a, r, rfl, hk⟩, by rintro ⟨a, r, ⟨⟩, hk⟩; exact hk⟩
  | error e r =>
    rw [EStateM.bind, h]
    exact ⟨nofun, by rintro ⟨a, r, ⟨⟩, -⟩⟩

theorem pure_eq_ok {a' : α} : (pure a : EStateM ε σ α) s = .ok a' s' ↔ a = a' ∧ s = s' := by
  constructor
  · rintro ⟨⟩
    exact ⟨rfl, rfl⟩
  · rintro ⟨rfl, rfl⟩
    rfl

theorem throw_ne_ok {fault : ε} : (throw fault : EStateM ε σ α) s ≠ .ok a s' := nofun

end

/-! ## Postfix forms -/

theorem ofSymbol?_eq_some {symbol : String} :
    Operation.ofSymbol? symbol = some o ↔ symbol = o.symbol := by
  cases o <;> grind [Operation.ofSymbol?, Operation.symbol]

theorem level_eq (o : Operation) : o.level = 1 ∨ o.level = 2 := by
  cases o <;> decide

/-- The items, given from their end, are the postfix form of the formula. -/
inductive Encodes : List PostfixItem → Formula → Prop
  | operand (f : Formula) : Encodes [.operand f] f
  | operator (o : Operation) {left right : List PostfixItem} {f g : Formula}
      (hLeft : Encodes left f) (hRight : Encodes right g) :
      Encodes (.operator o.symbol :: (right ++ left)) (.binary o f g)

variable {f : Formula} {items : List PostfixItem}

theorem Encodes.reduce (h : Encodes items f) (rest : List PostfixItem) {depth : Nat}
    (hDepth : items.length ≤ depth) : reduce depth (items ++ rest) = .ok f rest := by
  induction h generalizing rest depth with
  | operand f =>
    obtain ⟨depth, rfl⟩ := Nat.exists_eq_add_of_le' (show 1 ≤ depth from hDepth)
    rfl
  | @operator o left right f g _ _ ihLeft ihRight =>
    rw [List.length_cons, List.length_append] at hDepth
    obtain ⟨depth, rfl⟩ := Nat.exists_eq_add_of_le' (show 1 ≤ depth by omega)
    have hr := ihRight (left ++ rest) (show right.length ≤ depth by omega)
    have hl := ihLeft rest (show left.length ≤ depth by omega)
    have hSymbol : Operation.ofSymbol? o.symbol = some o := ofSymbol?_eq_some.mpr rfl
    rw [List.cons_append, List.append_assoc]
    change (Reading.reduce depth >>= _ : EStateM _ _ _) (right ++ (left ++ rest)) = _
    rw [bind_of_ok hr, bind_of_ok hl]
    simp only [hSymbol]
    rfl

theorem Encodes.finish (h : Encodes items f) (ts : List Token) :
    Reading.finish items ts = .ok f ts := by
  have hReduce := h.reduce [] (Nat.le_succ items.length)
  rw [List.append_nil] at hReduce
  rw [Reading.finish, hReduce]
  rfl

/-! ## The two stacks -/

/-- The sum so far and the operator that waits with it, if there is one yet. -/
abbrev Sum := Option (Formula × Operation)

/-- The sum with one product more. -/
def total : Sum → Formula → Formula
  | none, product => product
  | some (left, o), product => .binary o left product

/-- The stacks below the product that is being read. -/
inductive SumStacks : Sum → List Operation → List PostfixItem → Prop
  | first : SumStacks none [] []
  | after {o : Operation} {left : Formula} {items : List PostfixItem} (hLevel : o.level = 1)
      (h : Encodes items left) : SumStacks (some (left, o)) [o] items

/-- The stacks after an operand, which ends the product so far. -/
inductive Stacks (sum : Sum) : Formula → List Operation → List PostfixItem → Prop
  | operand (f : Formula) {waiting : List Operation} {rest : List PostfixItem}
      (h : SumStacks sum waiting rest) : Stacks sum f waiting (.operand f :: rest)
  | times {o : Operation} {f : Formula} (g : Formula) {waiting : List Operation}
      {left rest : List PostfixItem} (hLevel : o.level = 2) (hLeft : Encodes left f)
      (h : SumStacks sum waiting rest) :
      Stacks sum (.binary o f g) (o :: waiting) (.operand g :: (left ++ rest))

variable {sum : Sum} {waiting : List Operation} {rest : List PostfixItem}

theorem SumStacks.unwind_tight (h : SumStacks sum waiting rest) (hLevel : o.level = 2)
    (items : List PostfixItem) : unwind o waiting items = (waiting, items) := by
  cases h with
  | first => rfl
  | @after o' left items' hLow h =>
    have hTighter : ¬ o.level ≤ o'.level := by omega
    rw [unwind, if_neg hTighter]

theorem SumStacks.unwind_loose (h : SumStacks sum waiting rest) (hLevel : o.level = 1)
    (hItems : Encodes items f) :
    ∃ all, unwind o waiting (items ++ rest) = ([], all) ∧ Encodes all (total sum f) := by
  cases h with
  | first => exact ⟨items, by rw [List.append_nil, unwind], hItems⟩
  | @after o' left items' hLow h =>
    have hAsTight : o.level ≤ o'.level := by omega
    exact ⟨_, by rw [unwind, if_pos hAsTight, unwind], .operator o' h hItems⟩

theorem SumStacks.unwindAll (h : SumStacks sum waiting rest) (hItems : Encodes items f) :
    Encodes (Reading.unwindAll waiting (items ++ rest)) (total sum f) := by
  cases h with
  | first => simpa [Reading.unwindAll, total] using hItems
  | @after o' left items' hLow h => exact .operator o' h hItems

/-- An operator of the upper level closes the product so far. -/
theorem Stacks.unwind_tight (h : Stacks sum f waiting items) (hLevel : o.level = 2) :
    ∃ below product rest, unwind o waiting items = (below, product ++ rest) ∧
      Encodes product f ∧ SumStacks sum below rest := by
  cases h with
  | @operand f waiting rest h =>
    exact ⟨waiting, [.operand f], rest, h.unwind_tight hLevel _, .operand f, h⟩
  | @times o' f g below left rest hLevel' hLeft h =>
    have hAsTight : o.level ≤ o'.level := by omega
    refine ⟨below, .operator o'.symbol :: ([.operand g] ++ left), rest, ?_,
      .operator o' hLeft (.operand g), h⟩
    rw [unwind, if_pos hAsTight, h.unwind_tight hLevel]
    rfl

/-- An operator of the lower level closes the sum so far. -/
theorem Stacks.unwind_loose (h : Stacks sum f waiting items) (hLevel : o.level = 1) :
    ∃ all, unwind o waiting items = ([], all) ∧ Encodes all (total sum f) := by
  cases h with
  | @operand f waiting rest h => exact h.unwind_loose hLevel (.operand f)
  | @times o' f g below left rest hLevel' hLeft h =>
    have hAsTight : o.level ≤ o'.level := by omega
    obtain ⟨all, hAll, hEncodes⟩ := h.unwind_loose hLevel (.operator o' hLeft (.operand g))
    refine ⟨all, ?_, hEncodes⟩
    rw [unwind, if_pos hAsTight, ← hAll]
    rfl

theorem Stacks.finish (h : Stacks sum f waiting items) (ts : List Token) :
    Reading.finish (unwindAll waiting items) ts = .ok (total sum f) ts := by
  cases h with
  | operand f h => exact (h.unwindAll (.operand f)).finish ts
  | @times o' f g below left rest hLevel' hLeft h =>
    exact (h.unwindAll (.operator o' hLeft (.operand g))).finish ts

end Spreadsheet.Reading
