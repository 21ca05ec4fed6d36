import Spreadsheet.Proofs.Formula.Layered
import Spreadsheet.Proofs.Formula.Postfix

/-!
# Reading and the layered grammar

The reader that works with two stacks finds the formula of the layered grammar, and finds one
whenever the grammar does. `Sound` says the first by induction on the depth: the rest of a chain,
read with stacks that stand for a sum and a product, is the rest of the product and then the rest of
the sum. `Runs` says the second by induction on the grammar.
-/

set_option autoImplicit false

namespace Spreadsheet

open Number (Operation)

namespace Reading

variable {stop depth : Nat} {t : Token} {ts us : List Token} {f : Formula} {fs : List Formula}
  {o : Operation} {texts : List String} {kind : TokenKind}

/-! ## One token -/

theorem get_run {ε σ : Type} (s : σ) : (get : EStateM ε σ σ) s = .ok s s := rfl

theorem next_eq_ok : next stop ts = .ok t us ↔ ts = t :: us := by
  cases ts <;> simp [next]

theorem require_eq_ok {p : Prop} [Decidable p] {fault : SyntaxFault} {t' : Token} :
    (if p then pure t else throw fault : Reading Token) ts = .ok t' us ↔
      p ∧ t = t' ∧ ts = us := by
  by_cases hp : p <;> simp [hp, pure_eq_ok, throw_ne_ok]

theorem expect_eq_ok : expect stop texts ts = .ok t us ↔ ts = t :: us ∧ t.text ∈ texts := by
  simp only [expect, bind_eq_ok, next_eq_ok, require_eq_ok, List.contains_iff_mem]
  constructor
  · rintro ⟨t', us', rfl, hText, rfl, rfl⟩
    exact ⟨rfl, hText⟩
  · rintro ⟨rfl, hText⟩
    exact ⟨t, us, rfl, hText, rfl, rfl⟩

theorem expectKind_eq_ok : expectKind stop kind ts = .ok t us ↔ ts = t :: us ∧ t.kind = kind := by
  simp only [expectKind, bind_eq_ok, next_eq_ok, require_eq_ok]
  constructor
  · rintro ⟨t', us', rfl, hKind, rfl, rfl⟩
    exact ⟨rfl, hKind⟩
  · rintro ⟨rfl, hKind⟩
    exact ⟨t, us, rfl, hKind, rfl, rfl⟩

theorem isNext_eq_true : isNext texts ts = true ↔ ∃ t rest, ts = t :: rest ∧ t.text ∈ texts := by
  cases ts <;> simp [isNext]

theorem nextOperation?_cons : nextOperation? (t :: ts) = some o ↔ t.Operates o := by
  by_cases hKind : t.kind = .operator <;>
    simp [nextOperation?, Token.Operates, hKind, ofSymbol?_eq_some]

theorem exists_of_nextOperation? (h : nextOperation? ts = some o) :
    ∃ t rest, ts = t :: rest ∧ t.Operates o := by
  cases ts with
  | nil => cases h
  | cons t rest => exact ⟨t, rest, rfl, nextOperation?_cons.mp h⟩

theorem stops_of_nextOperation? {level : Nat}
    (h : ∀ o, nextOperation? ts = some o → o.level ≠ level) : Layer.Stops level ts := by
  rintro t rest o rfl ho
  exact h o (nextOperation?_cons.mpr ho)

/-! ## One step -/

theorem chain_of_operates (ht : t.Operates o) (waiting : List Operation)
    (items : List PostfixItem) :
    chainWithin stop (depth + 1) waiting items (t :: ts) =
      (operandWithin stop depth >>= fun f =>
        chainWithin stop depth (o :: (unwind o waiting items).1)
          (.operand f :: (unwind o waiting items).2)) ts := by
  have hNext : nextOperation? (t :: ts) = some o := nextOperation?_cons.mpr ht
  rw [chainWithin, bind_of_ok (get_run _)]
  simp only [hNext]
  rfl

theorem chain_of_none (h : nextOperation? ts = none) (waiting : List Operation)
    (items : List PostfixItem) :
    chainWithin stop (depth + 1) waiting items ts = finish (unwindAll waiting items) ts := by
  rw [chainWithin, bind_of_ok (get_run _)]
  simp only [h]

theorem operand_succ (ts : List Token) :
    operandWithin stop (depth + 1) ts =
      if isNextKind .identifier ts then callWithin stop depth ts
      else if isNext ["-"] ts then negativeWithin stop depth ts
      else if isNext ["("] ts then parenthesizedWithin stop depth ts
      else term stop ts := by
  change (if _ then _ else _ : Reading Formula) ts = _
  cases isNextKind .identifier ts <;> cases isNext ["-"] ts <;> cases isNext ["("] ts <;> rfl

/-- The formula of a single token. -/
def single (t : Token) : Option Formula :=
  match t.kind with
  | .number => some (.number t.text)
  | .text => some (.text t.text)
  | .cell => some (.cell t.text)
  | _ => none

theorem term_of_single (h : t.kind ≠ .cell ∨ isNext [":"] ts = false) :
    term stop (t :: ts) = .ok f us ↔ single t = some f ∧ ts = us := by
  have hNot : (decide (t.kind = .cell) && isNext [":"] ts) = false := by
    rcases h with h | h <;> simp [h]
  change (if (decide (t.kind = .cell) && isNext [":"] ts) = true then _ else _ : Reading Formula) ts
    = _ ↔ _
  rw [hNot]
  cases hKind : t.kind <;> simp [single, hKind, pure_eq_ok, throw_ne_ok]

theorem term_of_range {colon : Token} (hFirst : t.kind = .cell) (hColon : colon.text = ":") :
    term stop (t :: colon :: ts) = .ok f us ↔
      ∃ last, ts = last :: us ∧ last.kind = .cell ∧ f = .range t.text last.text := by
  have hRange : (decide (t.kind = .cell) && isNext [":"] (colon :: ts)) = true := by
    simp [hFirst, isNext, hColon]
  change (if (decide (t.kind = .cell) && isNext [":"] (colon :: ts)) = true then _ else _ :
    Reading Formula) (colon :: ts) = _ ↔ _
  rw [hRange, if_pos rfl]
  simp only [bind_eq_ok, expect_eq_ok, expectKind_eq_ok, pure_eq_ok]
  constructor
  · rintro ⟨_, _, ⟨⟨⟩, -⟩, last, vs, ⟨rfl, hLast⟩, rfl, rfl⟩
    exact ⟨last, rfl, hLast, rfl⟩
  · rintro ⟨last, rfl, hLast, rfl⟩
    exact ⟨colon, _, ⟨rfl, by simp [hColon]⟩, last, us, ⟨rfl, hLast⟩, rfl, rfl⟩

/-! ## What is read is in the grammar -/

theorem reads_of_term (h : term stop ts = .ok f us) : Layer.Reads .operand ts f us := by
  cases ts with
  | nil => cases h
  | cons t rest =>
    by_cases hRange : t.kind = .cell ∧ isNext [":"] rest = true
    · obtain ⟨hFirst, hColon⟩ := hRange
      obtain ⟨colon, cs, rfl, hText⟩ := isNext_eq_true.mp hColon
      have hText : colon.text = ":" := by simpa using hText
      obtain ⟨last, rfl, hLast, rfl⟩ := (term_of_range hFirst hText).mp h
      exact .range hFirst hText hLast
    · have hSingle : t.kind ≠ .cell ∨ isNext [":"] rest = false := by
        rwa [← Bool.not_eq_true, ← Decidable.not_and_iff_not_or_not]
      obtain ⟨hf, rfl⟩ := (term_of_single hSingle).mp h
      unfold single at hf
      split at hf <;> cases hf
      · exact .number ‹_›
      · exact .text ‹_›
      · rename_i hKind
        refine .cell hKind fun colon cs hRest hText => hRange ⟨hKind, ?_⟩
        exact isNext_eq_true.mpr ⟨colon, cs, hRest, by simp [hText]⟩

/-- What the steps of reading find down to a depth. -/
structure Sound (stop depth : Nat) : Prop where
  expression : ∀ {ts us f}, expressionWithin stop depth ts = .ok f us →
    Layer.Reads .expression ts f us
  chain : ∀ {sum product waiting items ts us f}, Stacks sum product waiting items →
    chainWithin stop depth waiting items ts = .ok f us →
    ∃ p vs, Layer.Reads (.product product) ts p vs ∧ Layer.Reads (.sum (total sum p)) vs f us
  operand : ∀ {ts us f}, operandWithin stop depth ts = .ok f us → Layer.Reads .operand ts f us
  negative : ∀ {ts us f}, negativeWithin stop depth ts = .ok f us → Layer.Reads .operand ts f us
  parenthesized : ∀ {ts us f}, parenthesizedWithin stop depth ts = .ok f us →
    Layer.Reads .operand ts f us
  call : ∀ {ts us f}, callWithin stop depth ts = .ok f us → Layer.Reads .operand ts f us
  arguments : ∀ {ts us fs}, argumentsWithin stop depth ts = .ok fs us → ∀ function before,
    Layer.Reads (.arguments function before) ts (.call function (before ++ fs)) us

theorem Sound.expression_succ (h : Sound stop depth)
    (hRun : expressionWithin stop (depth + 1) ts = .ok f us) : Layer.Reads .expression ts f us := by
  rw [expressionWithin, bind_eq_ok] at hRun
  obtain ⟨first, vs, hFirst, hRest⟩ := hRun
  obtain ⟨p, ws, hProduct, hSum⟩ := h.chain (.operand first .first) hRest
  exact .expression (.term (h.operand hFirst) hProduct) hSum

theorem Sound.chain_succ (h : Sound stop depth) {sum : Sum} {product : Formula}
    {waiting : List Operation} {items : List PostfixItem}
    (hStacks : Stacks sum product waiting items)
    (hRun : chainWithin stop (depth + 1) waiting items ts = .ok f us) :
    ∃ p vs, Layer.Reads (.product product) ts p vs ∧ Layer.Reads (.sum (total sum p)) vs f us := by
  cases hNext : nextOperation? ts with
  | none =>
    -- the chain ends here, for products and for sums
    rw [chain_of_none hNext, hStacks.finish] at hRun
    cases hRun
    have hStops : ∀ level, Layer.Stops level ts := fun level =>
      stops_of_nextOperation? fun o ho => by simp [hNext] at ho
    exact ⟨product, ts, .productEnd (hStops 2), .sumEnd (hStops 1)⟩
  | some o =>
    obtain ⟨t, rest, rfl, ht⟩ := exists_of_nextOperation? hNext
    rw [chain_of_operates ht, bind_eq_ok] at hRun
    obtain ⟨g, vs, hOperand, hRun⟩ := hRun
    have hReads := h.operand hOperand
    rcases level_eq o with hLevel | hLevel
    · -- the product ends; what was read becomes the left part of a new sum
      obtain ⟨all, hAll, hEncodes⟩ := hStacks.unwind_loose hLevel
      rw [hAll] at hRun
      obtain ⟨p, ws, hProduct, hSum⟩ := h.chain (.operand g (.after hLevel hEncodes)) hRun
      have hStops : Layer.Stops 2 (t :: rest) := stops_of_nextOperation? fun o' ho' => by
        rw [hNext] at ho'
        cases ho'
        omega
      exact ⟨product, t :: rest, .productEnd hStops, .add ht hLevel (.term hReads hProduct) hSum⟩
    · obtain ⟨below, left, under, hUnwind, hLeft, hBelow⟩ := hStacks.unwind_tight hLevel
      rw [hUnwind] at hRun
      obtain ⟨p, ws, hProduct, hSum⟩ := h.chain (.times g hLevel hLeft hBelow) hRun
      exact ⟨p, ws, .multiply ht hLevel hReads hProduct, hSum⟩

theorem Sound.operand_succ (h : Sound stop depth)
    (hRun : operandWithin stop (depth + 1) ts = .ok f us) : Layer.Reads .operand ts f us := by
  rw [Reading.operand_succ] at hRun
  split at hRun
  · exact h.call hRun
  · split at hRun
    · exact h.negative hRun
    · split at hRun
      · exact h.parenthesized hRun
      · exact reads_of_term hRun

theorem Sound.negative_succ (h : Sound stop depth)
    (hRun : negativeWithin stop (depth + 1) ts = .ok f us) : Layer.Reads .operand ts f us := by
  simp only [negativeWithin, bind_eq_ok, expect_eq_ok, pure_eq_ok, List.mem_singleton] at hRun
  obtain ⟨t, vs, ⟨rfl, hMinus⟩, g, ws, hExpression, rfl, rfl⟩ := hRun
  exact .negative hMinus (h.expression hExpression)

theorem Sound.parenthesized_succ (h : Sound stop depth)
    (hRun : parenthesizedWithin stop (depth + 1) ts = .ok f us) : Layer.Reads .operand ts f us := by
  simp only [parenthesizedWithin, bind_eq_ok, expect_eq_ok, pure_eq_ok, List.mem_singleton] at hRun
  obtain ⟨t, vs, ⟨rfl, hOpening⟩, g, ws, hExpression, t', xs, ⟨rfl, hClosing⟩, rfl, rfl⟩ := hRun
  exact .parenthesized hOpening (h.expression hExpression) hClosing

theorem Sound.call_succ (h : Sound stop depth)
    (hRun : callWithin stop (depth + 1) ts = .ok f us) : Layer.Reads .operand ts f us := by
  simp only [callWithin, bind_eq_ok, expect_eq_ok, expectKind_eq_ok, List.mem_singleton] at hRun
  obtain ⟨name, _, ⟨rfl, hName⟩, opening, vs, ⟨rfl, hOpening⟩, _, _, ⟨⟩, hRun⟩ := hRun
  cases hEmpty : isNext [")"] vs with
  | true =>
    simp only [hEmpty, if_true, bind_eq_ok, expect_eq_ok, pure_eq_ok, List.mem_singleton] at hRun
    obtain ⟨closing, _, ⟨rfl, hClosing⟩, rfl, rfl⟩ := hRun
    exact .callEmpty hName hOpening hClosing
  | false =>
    simp only [hEmpty, Bool.false_eq_true, if_false, bind_eq_ok, pure_eq_ok] at hRun
    obtain ⟨fs, _, hArguments, rfl, rfl⟩ := hRun
    exact .call hName hOpening (h.arguments hArguments name.text [])

theorem Sound.arguments_succ (h : Sound stop depth)
    (hRun : argumentsWithin stop (depth + 1) ts = .ok fs us) (function : String)
    (before : List Formula) :
    Layer.Reads (.arguments function before) ts (.call function (before ++ fs)) us := by
  simp only [argumentsWithin, bind_eq_ok, expect_eq_ok, beq_iff_eq] at hRun
  obtain ⟨f, _, hFirst, t, vs, ⟨rfl, hText⟩, hRun⟩ := hRun
  by_cases hComma : t.text = ","
  · simp only [if_pos hComma, bind_eq_ok, pure_eq_ok] at hRun
    obtain ⟨gs, _, hRest, rfl, rfl⟩ := hRun
    have hNext := h.arguments hRest function (before ++ [f])
    rw [List.append_assoc, List.singleton_append] at hNext
    exact .next (h.expression hFirst) hComma hNext
  · simp only [if_neg hComma, pure_eq_ok] at hRun
    obtain ⟨rfl, rfl⟩ := hRun
    have hClosing : t.text = ")" := by simpa [hComma] using hText
    exact .last (h.expression hFirst) hClosing

theorem sound (stop depth : Nat) : Sound stop depth := by
  induction depth with
  | zero =>
    constructor
    all_goals exact nofun
  | succ depth ih =>
    exact {
      expression := ih.expression_succ
      chain := ih.chain_succ
      operand := ih.operand_succ
      negative := ih.negative_succ
      parenthesized := ih.parenthesized_succ
      call := ih.call_succ
      arguments := ih.arguments_succ }

/-! ## What is in the grammar is read -/

theorem isNext_singleton {symbol : String} :
    isNext [symbol] (t :: ts) = true ↔ t.text = symbol := by
  simp [isNext]

theorem isNextKind_cons : isNextKind kind (t :: ts) = true ↔ t.kind = kind := by
  simp [isNextKind]

theorem operand_of_identifier (h : t.kind = .identifier) :
    operandWithin stop (depth + 1) (t :: ts) = callWithin stop depth (t :: ts) := by
  rw [operand_succ, if_pos (isNextKind_cons.mpr h)]

theorem operand_of_word (hLexed : AreLexed (t :: ts)) (hWord : t.isWord = true)
    (hKind : t.kind ≠ .identifier) :
    operandWithin stop (depth + 1) (t :: ts) = term stop (t :: ts) := by
  have hMinus := hLexed.ne hWord (by decide : "-" ∈ symbols)
  have hOpening := hLexed.ne hWord (by decide : "(" ∈ symbols)
  rw [operand_succ, if_neg (mt isNextKind_cons.mp hKind), if_neg (mt isNext_singleton.mp hMinus),
    if_neg (mt isNext_singleton.mp hOpening)]

theorem kind_ne_of_symbol (hLexed : AreLexed (t :: ts)) {symbol : String} (hText : t.text = symbol)
    (hSymbol : symbol ∈ symbols) : t.kind ≠ .identifier := by
  intro hKind
  exact hLexed.ne (Layer.isWord_of_kind hKind (by decide)) hSymbol hText

theorem operand_of_minus (hLexed : AreLexed (t :: ts)) (h : t.text = "-") :
    operandWithin stop (depth + 1) (t :: ts) = negativeWithin stop depth (t :: ts) := by
  have hKind := kind_ne_of_symbol hLexed h (by decide)
  rw [operand_succ, if_neg (mt isNextKind_cons.mp hKind), if_pos (isNext_singleton.mpr h)]

theorem operand_of_opening (hLexed : AreLexed (t :: ts)) (h : t.text = "(") :
    operandWithin stop (depth + 1) (t :: ts) = parenthesizedWithin stop depth (t :: ts) := by
  have hKind := kind_ne_of_symbol hLexed h (by decide)
  have hMinus : t.text ≠ "-" := by
    rw [h]
    decide
  rw [operand_succ, if_neg (mt isNextKind_cons.mp hKind), if_neg (mt isNext_singleton.mp hMinus),
    if_pos (isNext_singleton.mpr h)]

theorem operand_of_single (hLexed : AreLexed (t :: ts)) (hSingle : single t = some f)
    (hAlone : t.kind ≠ .cell ∨ isNext [":"] ts = false) :
    operandWithin stop (depth + 1) (t :: ts) = .ok f ts := by
  have hWord : t.isWord = true ∧ t.kind ≠ .identifier := by
    cases hKind : t.kind <;> simp_all [single, Token.isWord]
  rw [operand_of_word hLexed hWord.1 hWord.2]
  exact (term_of_single hAlone).mpr ⟨hSingle, rfl⟩

/-- The chain goes on to the formula from any stacks that stand for the sum and the product. -/
def GoesOn (stop : Nat) (sum : Sum) (product : Formula) (ts : List Token) (f : Formula)
    (us : List Token) : Prop :=
  ∀ waiting items depth, Stacks sum product waiting items → 3 * ts.length + 1 ≤ depth →
    chainWithin stop depth waiting items ts = .ok f us

/-- What a layer asks of the reader: it ends alike at every sufficient depth. A term and a product
are read as far as the chain that goes on after them. -/
def Runs (stop : Nat) : Layer → List Token → Formula → List Token → Prop
  -- at most three steps are nested between two tokens: an expression, its operand, a minus
  | .expression, ts, f, us =>
    ∀ depth, 3 * ts.length + 2 ≤ depth → expressionWithin stop depth ts = .ok f us
  | .sum left, ts, f, us => Layer.Stops 2 ts → ∀ sum product, total sum product = left →
    GoesOn stop sum product ts f us
  | .term, ts, product, us => ∀ sum waiting rest depth g vs, SumStacks sum waiting rest →
    3 * ts.length + 1 ≤ depth → GoesOn stop sum product us g vs →
    (operandWithin stop depth >>= fun f =>
      chainWithin stop depth waiting (.operand f :: rest)) ts = .ok g vs
  | .product left, ts, product, us => ∀ sum g vs, GoesOn stop sum product us g vs →
    GoesOn stop sum left ts g vs
  | .operand, ts, f, us =>
    ∀ depth, 3 * ts.length + 1 ≤ depth → operandWithin stop depth ts = .ok f us
  | .arguments function before, ts, f, us => ∃ fs, f = .call function (before ++ fs) ∧
    ∀ depth, 3 * ts.length + 3 ≤ depth → argumentsWithin stop depth ts = .ok fs us

variable {sum : Sum} {left product g : Formula} {vs : List Token}

theorem nextOperation?_of_stops (hSum : Layer.Stops 1 ts) (hProduct : Layer.Stops 2 ts) :
    nextOperation? ts = none := by
  cases hNext : nextOperation? ts with
  | none => rfl
  | some o =>
    obtain ⟨t, rest, rfl, ht⟩ := exists_of_nextOperation? hNext
    rcases level_eq o with hLevel | hLevel
    · exact absurd hLevel (hSum t rest o rfl ht)
    · exact absurd hLevel (hProduct t rest o rfl ht)

theorem goesOn_end (hSum : Layer.Stops 1 ts) (hProduct : Layer.Stops 2 ts) :
    GoesOn stop sum product ts (total sum product) ts := by
  intro waiting items depth hStacks hDepth
  obtain ⟨depth, rfl⟩ := Nat.exists_eq_add_of_le' (show 1 ≤ depth by omega)
  rw [chain_of_none (nextOperation?_of_stops hSum hProduct), hStacks.finish]

theorem GoesOn.multiply (ht : t.Operates o) (hLevel : o.level = 2)
    (hOperand : Runs stop .operand ts f us) (hSuffix : us <:+ ts)
    (h : GoesOn stop sum (.binary o left f) us g vs) : GoesOn stop sum left (t :: ts) g vs := by
  intro waiting items depth hStacks hDepth
  rw [List.length_cons] at hDepth
  obtain ⟨depth, rfl⟩ := Nat.exists_eq_add_of_le' (show 1 ≤ depth by omega)
  obtain ⟨below, all, rest, hUnwind, hAll, hBelow⟩ := hStacks.unwind_tight hLevel
  have hLength := hSuffix.length_le
  rw [chain_of_operates ht, hUnwind, bind_of_ok (hOperand depth (by omega))]
  exact h _ _ depth (.times f hLevel hAll hBelow) (by omega)

theorem GoesOn.add (ht : t.Operates o) (hLevel : o.level = 1) (hTerm : Runs stop .term ts f us)
    (h : GoesOn stop (some (total sum product, o)) f us g vs) :
    GoesOn stop sum product (t :: ts) g vs := by
  intro waiting items depth hStacks hDepth
  rw [List.length_cons] at hDepth
  obtain ⟨depth, rfl⟩ := Nat.exists_eq_add_of_le' (show 1 ≤ depth by omega)
  obtain ⟨all, hUnwind, hAll⟩ := hStacks.unwind_loose hLevel
  rw [chain_of_operates ht, hUnwind]
  exact hTerm _ _ _ depth g vs (.after hLevel hAll) (by omega) h

theorem runs_term (hOperand : Runs stop .operand ts f us) (hSuffix : us <:+ ts)
    (hProduct : Runs stop (.product f) us g vs) : Runs stop .term ts g vs := by
  intro sum waiting rest depth g' ws hStacks hDepth hGoesOn
  have hLength := hSuffix.length_le
  rw [bind_of_ok (hOperand depth hDepth)]
  exact hProduct sum g' ws hGoesOn _ _ depth (.operand f hStacks) (by omega)

theorem runs_expression (hTerm : Runs stop .term ts f us) (hStops : Layer.Stops 2 us)
    (hSum : Runs stop (.sum f) us g vs) : Runs stop .expression ts g vs := by
  intro depth hDepth
  obtain ⟨depth, rfl⟩ := Nat.exists_eq_add_of_le' (show 1 ≤ depth by omega)
  exact hTerm none [] [] depth g vs .first (by omega) (hSum hStops none f rfl)

theorem runs_range {first colon last : Token} (hLexed : AreLexed (first :: colon :: last :: ts))
    (hFirst : first.kind = .cell) (hColon : colon.text = ":") (hLast : last.kind = .cell) :
    Runs stop .operand (first :: colon :: last :: ts) (.range first.text last.text) ts := by
  intro depth hDepth
  obtain ⟨depth, rfl⟩ := Nat.exists_eq_add_of_le' (show 1 ≤ depth by omega)
  have hKind : first.kind ≠ .identifier := by
    rw [hFirst]
    decide
  rw [operand_of_word hLexed (Layer.isWord_of_kind hFirst (by decide)) hKind,
    (term_of_range hFirst hColon).mpr ⟨last, rfl, hLast, rfl⟩]

theorem runs_negative (hLexed : AreLexed (t :: ts)) (hMinus : t.text = "-")
    (hOperand : Runs stop .expression ts f us) : Runs stop .operand (t :: ts) (.negative f) us := by
  intro depth hDepth
  rw [List.length_cons] at hDepth
  obtain ⟨depth, rfl⟩ := Nat.exists_eq_add_of_le' (show 2 ≤ depth by omega)
  rw [operand_of_minus hLexed hMinus]
  simp only [negativeWithin, bind_eq_ok, expect_eq_ok, pure_eq_ok, List.mem_singleton]
  exact ⟨t, ts, ⟨rfl, hMinus⟩, f, us, hOperand depth (by omega), rfl, rfl⟩

theorem runs_parenthesized {closing : Token} (hLexed : AreLexed (t :: ts)) (hOpening : t.text = "(")
    (hInside : Runs stop .expression ts f (closing :: us)) (hClosing : closing.text = ")") :
    Runs stop .operand (t :: ts) f us := by
  intro depth hDepth
  rw [List.length_cons] at hDepth
  obtain ⟨depth, rfl⟩ := Nat.exists_eq_add_of_le' (show 2 ≤ depth by omega)
  rw [operand_of_opening hLexed hOpening]
  simp only [parenthesizedWithin, bind_eq_ok, expect_eq_ok, pure_eq_ok, List.mem_singleton]
  exact ⟨t, ts, ⟨rfl, hOpening⟩, f, closing :: us, hInside depth (by omega), closing, us,
    ⟨rfl, hClosing⟩, rfl, rfl⟩

theorem runs_single (hLexed : AreLexed (t :: ts)) (hSingle : single t = some f)
    (hAlone : t.kind ≠ .cell ∨ isNext [":"] ts = false) : Runs stop .operand (t :: ts) f ts := by
  intro depth hDepth
  obtain ⟨depth, rfl⟩ := Nat.exists_eq_add_of_le' (show 1 ≤ depth by omega)
  exact operand_of_single hLexed hSingle hAlone

/-- The part of a call after its opening parenthesis. -/
theorem call_eq_ok {name opening : Token} (hName : name.kind = .identifier)
    (hOpening : opening.text = "(") :
    callWithin stop (depth + 1) (name :: opening :: ts) = .ok f us ↔
      (if isNext [")"] ts = true then expect stop [")"] >>= fun _ => pure (.call name.text [])
      else argumentsWithin stop depth >>= fun fs => pure (.call name.text fs)) ts = .ok f us := by
  have hExpect : expect stop ["("] (opening :: ts) = .ok opening ts :=
    expect_eq_ok.mpr ⟨rfl, by simp [hOpening]⟩
  rw [callWithin, bind_of_ok (expectKind_eq_ok.mpr ⟨rfl, hName⟩), bind_of_ok hExpect]
  rfl

theorem runs_callEmpty {name opening closing : Token} (hName : name.kind = .identifier)
    (hOpening : opening.text = "(") (hClosing : closing.text = ")") :
    Runs stop .operand (name :: opening :: closing :: ts) (.call name.text []) ts := by
  intro depth hDepth
  rw [List.length_cons] at hDepth
  obtain ⟨depth, rfl⟩ := Nat.exists_eq_add_of_le' (show 2 ≤ depth by omega)
  rw [operand_of_identifier hName, call_eq_ok hName hOpening,
    if_pos (isNext_singleton.mpr hClosing),
    bind_of_ok (expect_eq_ok.mpr ⟨rfl, by simp [hClosing]⟩), pure_eq_ok]
  exact ⟨rfl, rfl⟩

theorem runs_call {name opening : Token} (hLexed : AreLexed ts) (hName : name.kind = .identifier)
    (hOpening : opening.text = "(") (hOpens : Layer.Opens ts)
    (hArguments : Runs stop (.arguments name.text []) ts f us) :
    Runs stop .operand (name :: opening :: ts) f us := by
  obtain ⟨fs, rfl, hRun⟩ := hArguments
  intro depth hDepth
  rw [List.length_cons, List.length_cons] at hDepth
  obtain ⟨depth, rfl⟩ := Nat.exists_eq_add_of_le' (show 2 ≤ depth by omega)
  have hNotEmpty : ¬ isNext [")"] ts = true := by
    obtain ⟨t, rest, rfl, hWord | hText | hText⟩ := hOpens
    · exact mt isNext_singleton.mp (hLexed.ne hWord (by decide))
    · simp [isNext, hText]
    · simp [isNext, hText]
  rw [operand_of_identifier hName, call_eq_ok hName hOpening, if_neg hNotEmpty,
    bind_of_ok (hRun depth (by omega)), pure_eq_ok]
  exact ⟨rfl, rfl⟩

theorem runs_next {function : String} {before : List Formula} {comma : Token}
    (hArgument : Runs stop .expression ts f (comma :: us)) (hSuffix : comma :: us <:+ ts)
    (hComma : comma.text = ",")
    (hArguments : Runs stop (.arguments function (before ++ [f])) us g vs) :
    Runs stop (.arguments function before) ts g vs := by
  obtain ⟨fs, rfl, hRun⟩ := hArguments
  refine ⟨f :: fs, by rw [List.append_assoc, List.singleton_append], fun depth hDepth => ?_⟩
  have hLength := hSuffix.length_le
  rw [List.length_cons] at hLength
  obtain ⟨depth, rfl⟩ := Nat.exists_eq_add_of_le' (show 1 ≤ depth by omega)
  rw [argumentsWithin, bind_of_ok (hArgument depth (by omega)),
    bind_of_ok (expect_eq_ok.mpr ⟨rfl, by simp [hComma]⟩), if_pos (by simp [hComma]),
    bind_of_ok (hRun depth (by omega)), pure_eq_ok]
  exact ⟨rfl, rfl⟩

theorem runs_last {function : String} {before : List Formula} {closing : Token}
    (hArgument : Runs stop .expression ts f (closing :: us)) (hClosing : closing.text = ")") :
    Runs stop (.arguments function before) ts (.call function (before ++ [f])) us := by
  refine ⟨[f], rfl, fun depth hDepth => ?_⟩
  obtain ⟨depth, rfl⟩ := Nat.exists_eq_add_of_le' (show 1 ≤ depth by omega)
  rw [argumentsWithin, bind_of_ok (hArgument depth (by omega)),
    bind_of_ok (expect_eq_ok.mpr ⟨rfl, by simp [hClosing]⟩), if_neg (by simp [hClosing]),
    pure_eq_ok]
  exact ⟨rfl, rfl⟩

theorem runs_of_reads {layer : Layer} (h : layer.Reads ts f us) (hLexed : AreLexed ts) :
    Runs stop layer ts f us := by
  -- on the grammar; each part is read from a suffix of the tokens, which is lexed as well
  induction h with
  | expression hTerm _ ihTerm ihSum =>
    exact runs_expression (ihTerm hLexed) (hTerm.stops (.inl rfl))
      (ihSum (hLexed.of_suffix hTerm.suffix))
  | add hOperator hLevel hTerm _ ihTerm ihSum =>
    rintro - sum product rfl
    exact .add hOperator hLevel (ihTerm hLexed.tail)
      (ihSum (hLexed.tail.of_suffix hTerm.suffix) (hTerm.stops (.inl rfl)) _ _ rfl)
  | sumEnd hStops =>
    rintro hProduct sum product rfl
    exact goesOn_end hStops hProduct
  | term hOperand _ ihOperand ihProduct =>
    exact runs_term (ihOperand hLexed) hOperand.suffix
      (ihProduct (hLexed.of_suffix hOperand.suffix))
  | multiply hOperator hLevel hOperand _ ihOperand ihProduct =>
    intro sum g vs hGoesOn
    exact .multiply hOperator hLevel (ihOperand hLexed.tail) hOperand.suffix
      (ihProduct (hLexed.tail.of_suffix hOperand.suffix) sum g vs hGoesOn)
  | productEnd hStops => exact fun sum g vs hGoesOn => hGoesOn
  | number hKind | text hKind =>
    exact runs_single hLexed (by rw [single, hKind]) (.inl (by rw [hKind]; decide))
  | @cell t ts hKind hAlone =>
    have hNext : ¬ isNext [":"] ts = true := by
      rw [isNext_eq_true]
      rintro ⟨colon, rest, rfl, hText⟩
      exact hAlone colon rest rfl (by simpa using hText)
    exact runs_single hLexed (by rw [single, hKind]) (.inr (by simpa using hNext))
  | range hFirst hColon hLast => exact runs_range hLexed hFirst hColon hLast
  | negative hMinus _ ih => exact runs_negative hLexed hMinus (ih hLexed.tail)
  | parenthesized hOpening _ hClosing ih =>
    exact runs_parenthesized hLexed hOpening (ih hLexed.tail) hClosing
  | callEmpty hName hOpening hClosing => exact runs_callEmpty hName hOpening hClosing
  | call hName hOpening hArguments ih =>
    exact runs_call hLexed.tail.tail hName hOpening (hArguments.opens trivial) (ih hLexed.tail.tail)
  | next hArgument hComma _ ihArgument ihArguments =>
    have hRest := hLexed.of_suffix hArgument.suffix
    exact runs_next (ihArgument hLexed) hArgument.suffix hComma (ihArguments hRest.tail)
  | last _ hClosing ih => exact runs_last (ih hLexed) hClosing

/-! ## Whole formulas -/

theorem complete_eq_ok : complete stop ts = .ok f us ↔ expression stop ts = .ok f [] ∧ us = [] := by
  rw [complete, bind_eq_ok]
  constructor
  · rintro ⟨g, vs, hRun, h⟩
    rw [bind_eq_ok] at h
    obtain ⟨_, _, ⟨⟩, h⟩ := h
    cases vs with
    | nil =>
      obtain ⟨rfl, rfl⟩ := pure_eq_ok.mp h
      exact ⟨hRun, rfl⟩
    | cons t rest => exact absurd h throw_ne_ok
  · rintro ⟨hRun, rfl⟩
    exact ⟨f, [], hRun, rfl⟩

end Reading

theorem ofTokens_eq_ok {ts : List Token} {f : Formula} (hLexed : AreLexed ts) :
    Formula.ofTokens ts = .ok f ↔ Layer.Reads .expression ts f [] := by
  have hComplete : Formula.ofTokens ts = .ok f ↔
      Reading.expression (sourceEnd ts) ts = .ok f [] := by
    unfold Formula.ofTokens
    cases hRun : Reading.complete (sourceEnd ts) ts with
    | ok g us =>
      obtain ⟨hExpression, rfl⟩ := Reading.complete_eq_ok.mp hRun
      simp [hExpression]
    | error fault us =>
      simp only [reduceCtorEq, false_iff]
      intro hExpression
      have := Reading.complete_eq_ok.mpr ⟨hExpression, rfl⟩
      rw [hRun] at this
      cases this
  rw [hComplete]
  constructor
  · exact (Reading.sound _ _).expression
  · intro h
    exact Reading.runs_of_reads h hLexed _ (by simp [Reading.depthFor])

namespace Formula

theorem words_of_ofTokens {ts : List Token} {f : Formula} (hLexed : AreLexed ts)
    (h : ofTokens ts = .ok f) : f.words = wordTexts ts := by
  have hWords := ((ofTokens_eq_ok hLexed).mp h).words_append hLexed
  simpa [Layer.words, wordTexts] using hWords.symm

/-- A formula is read off the tokens of a text exactly when the layered grammar gives it, and its
words are the words of the text in order. -/
theorem ofTokens_layered {source : String} {tokens : List Token}
    (h : tokenize source = .ok tokens) (f : Formula) :
    (ofTokens tokens = .ok f ↔ Layer.Reads .expression tokens f []) ∧
      (ofTokens tokens = .ok f → f.words = wordTexts tokens) := by
  have hLexed := areLexed_of_tokenize h
  exact ⟨ofTokens_eq_ok hLexed, words_of_ofTokens hLexed⟩

/-- A minus after an operator takes in the rest of the chain. -/
theorem ofTokens_layered_minus : ∃ tokens, tokenize "2*-3+1*A1" = .ok tokens ∧
    Layer.Reads .expression tokens (.binary .multiply (.number "2") (.negative (.binary .add
      (.number "3") (.binary .multiply (.number "1") (.cell "A1"))))) [] ∧
    wordTexts tokens = ["2", "3", "1", "A1"] := by
  let tokens : List Token := [⟨.number, "2", 0⟩, ⟨.operator, "*", 1⟩, ⟨.operator, "-", 2⟩,
    ⟨.number, "3", 3⟩, ⟨.operator, "+", 4⟩, ⟨.number, "1", 5⟩, ⟨.operator, "*", 6⟩,
    ⟨.cell, "A1", 7⟩]
  let f : Formula := .binary .multiply (.number "2") (.negative (.binary .add (.number "3")
    (.binary .multiply (.number "1") (.cell "A1"))))
  have hTokens : tokenize "2*-3+1*A1" = .ok tokens := by cbv
  have hRun : ofTokens tokens = .ok f := by rfl
  have hLayered := ofTokens_layered hTokens f
  exact ⟨tokens, hTokens, hLayered.1.mp hRun, (hLayered.2 hRun).symm⟩

end Formula
end Spreadsheet
