import Spreadsheet.Proofs.Formula.Grouping

/-!
# What reading depends on

A reading step sees the tokens that it takes and the one after them. `Resumes` says so of two steps:
where the first ends, the second ends alike as long as the same token comes next, and where the
first is refused at a token, the second is refused there whatever comes after it. The rules follow
the way steps are put together, and `resumes` joins them for a descent and a deeper one.
-/

set_option autoImplicit false

namespace Spreadsheet.Reading

open Number (Operation)

variable {α β γ : Type} {ts us : List Token} {t : Token} {fault : SyntaxFault} {stop depth : Nat}
  {o : Operation} {texts : List String} {kind : TokenKind} {x x' : Reading α}

/-! ## Steps that fail -/

section

variable {ε σ : Type} {s s' : σ} {e : ε}

theorem bind_eq_error {x : EStateM ε σ α} {k : α → EStateM ε σ β} :
    (x >>= k) s = .error e s' ↔
      x s = .error e s' ∨ ∃ a r, x s = .ok a r ∧ k a r = .error e s' := by
  change EStateM.bind x k s = _ ↔ _
  cases h : x s with
  | ok a r =>
    rw [EStateM.bind, h]
    exact ⟨fun hk => .inr ⟨a, r, rfl, hk⟩, by rintro (⟨⟨⟩⟩ | ⟨a, r, ⟨⟩, hk⟩); exact hk⟩
  | error e r =>
    rw [EStateM.bind, h]
    exact ⟨by rintro ⟨⟩; exact .inl rfl, by rintro (⟨⟨⟩⟩ | ⟨a, r, ⟨⟩, -⟩); rfl⟩

theorem pure_ne_error {a : α} : (pure a : EStateM ε σ α) s ≠ .error e s' := nofun

theorem throw_eq_error {fault : ε} :
    (throw fault : EStateM ε σ α) s = .error e s' ↔ fault = e ∧ s = s' := by
  constructor
  · rintro ⟨⟩
    exact ⟨rfl, rfl⟩
  · rintro ⟨rfl, rfl⟩
    rfl

end

theorem require_eq_error {p : Prop} [Decidable p] {fault' : SyntaxFault} :
    (if p then pure t else throw fault' : Reading Token) ts = .error fault us ↔
      ¬ p ∧ fault' = fault ∧ ts = us := by
  by_cases hp : p <;> simp [hp, pure_ne_error, throw_eq_error]

theorem next_eq_error : next stop ts = .error fault us ↔
    fault = .unexpectedEnd stop ∧ ts = [] ∧ us = [] := by
  cases ts <;> simp [next, eq_comm]

/-- A token that is required is missing, or another one stands in its place. -/
theorem expect_eq_error : expect stop texts ts = .error fault us ↔
    (fault = .unexpectedEnd stop ∧ ts = [] ∧ us = []) ∨
      ∃ t, ts = t :: us ∧ t.text ∉ texts ∧ fault = .unexpectedToken (.oneOf texts) t := by
  simp only [expect, bind_eq_error, next_eq_error, next_eq_ok, require_eq_error,
    List.contains_iff_mem]
  constructor
  · rintro (hEnd | ⟨t, vs, rfl, hText, rfl, rfl⟩)
    · exact .inl hEnd
    · exact .inr ⟨t, rfl, hText, rfl⟩
  · rintro (hEnd | ⟨t, rfl, hText, rfl⟩)
    · exact .inl hEnd
    · exact .inr ⟨t, us, rfl, hText, rfl, rfl⟩

theorem expectKind_eq_error : expectKind stop kind ts = .error fault us ↔
    (fault = .unexpectedEnd stop ∧ ts = [] ∧ us = []) ∨
      ∃ t, ts = t :: us ∧ t.kind ≠ kind ∧ fault = .unexpectedToken (.kind kind) t := by
  simp only [expectKind, bind_eq_error, next_eq_error, next_eq_ok, require_eq_error]
  constructor
  · rintro (hEnd | ⟨t, vs, rfl, hKind, rfl, rfl⟩)
    · exact .inl hEnd
    · exact .inr ⟨t, rfl, hKind, rfl⟩
  · rintro (hEnd | ⟨t, rfl, hKind, rfl⟩)
    · exact .inl hEnd
    · exact .inr ⟨t, us, rfl, hKind, rfl, rfl⟩

theorem term_of_single_eq_error (h : t.kind ≠ .cell ∨ isNext [":"] ts = false) :
    term stop (t :: ts) = .error fault us ↔
      single t = none ∧ fault = .unexpectedToken .term t ∧ ts = us := by
  have hNot : (decide (t.kind = .cell) && isNext [":"] ts) = false := by
    rcases h with h | h <;> simp [h]
  change (if (decide (t.kind = .cell) && isNext [":"] ts) = true then _ else _ : Reading Formula) ts
    = _ ↔ _
  rw [hNot]
  cases hKind : t.kind <;>
    simp [single, hKind, pure_ne_error, throw_eq_error, eq_comm (a := fault)]

theorem term_of_range_eq_error {colon : Token} (hFirst : t.kind = .cell)
    (hColon : colon.text = ":") : term stop (t :: colon :: ts) = .error fault us ↔
      expectKind stop .cell ts = .error fault us := by
  have hRange : (decide (t.kind = .cell) && isNext [":"] (colon :: ts)) = true := by
    simp [hFirst, isNext, hColon]
  have hExpect : expect stop [":"] (colon :: ts) = .ok colon ts :=
    expect_eq_ok.mpr ⟨rfl, by simp [hColon]⟩
  change (if (decide (t.kind = .cell) && isNext [":"] (colon :: ts)) = true then _ else _ :
    Reading Formula) (colon :: ts) = _ ↔ _
  rw [hRange, if_pos rfl, bind_of_ok hExpect, bind_eq_error]
  simp only [pure_ne_error, and_false, exists_false, or_false]

/-! ## Stacks that reduce to a formula -/

/-- The stacks stand for some sum and product. -/
def WellStacked (waiting : List Operation) (items : List PostfixItem) : Prop :=
  ∃ sum f, Stacks sum f waiting items

variable {waiting : List Operation} {items : List PostfixItem}

theorem WellStacked.first (f : Formula) : WellStacked [] [.operand f] :=
  ⟨none, f, .operand f .first⟩

theorem WellStacked.push (h : WellStacked waiting items) (o : Operation) (g : Formula) :
    WellStacked (o :: (unwind o waiting items).1) (.operand g :: (unwind o waiting items).2) := by
  obtain ⟨sum, f, hStacks⟩ := h
  rcases level_eq o with hLevel | hLevel
  · obtain ⟨all, hAll, hEncodes⟩ := hStacks.unwind_loose hLevel
    rw [hAll]
    exact ⟨_, _, .operand g (.after hLevel hEncodes)⟩
  · obtain ⟨below, left, under, hUnwind, hLeft, hBelow⟩ := hStacks.unwind_tight hLevel
    rw [hUnwind]
    exact ⟨_, _, .times g hLevel hLeft hBelow⟩

theorem WellStacked.finish (h : WellStacked waiting items) :
    ∃ f, finish (unwindAll waiting items) = pure f := by
  obtain ⟨sum, f, hStacks⟩ := h
  exact ⟨total sum f, funext hStacks.finish⟩

/-! ## One step after another -/

/-- Ended or refused, the first step has seen no more than the next token, and the second does the
same on all that the first has seen. -/
structure Resumes (x x' : Reading α) : Prop where
  ends : ∀ {ts us a}, x ts = .ok a us → ∃ taken, ts = taken ++ us ∧
    ∀ us' : List Token, us'.head? = us.head? → x' (taken ++ us') = .ok a us'
  refused : ∀ {ts us expected t}, x ts = .error (.unexpectedToken expected t) us →
    ∃ taken, ts = taken ++ t :: us ∧
      ∀ us', x' (taken ++ t :: us') = .error (.unexpectedToken expected t) us'

namespace Resumes

theorem pure (a : α) : Resumes (pure a) (Pure.pure a) where
  ends h := by
    obtain ⟨rfl, rfl⟩ := pure_eq_ok.mp h
    exact ⟨[], rfl, fun us' _ => rfl⟩
  refused h := absurd h pure_ne_error

theorem throw (hFault : ∀ expected t, fault ≠ .unexpectedToken expected t) (x' : Reading α) :
    Resumes (throw fault) x' where
  ends h := absurd h throw_ne_ok
  refused h := absurd (throw_eq_error.mp h).1 (hFault _ _)

theorem bind {k k' : α → Reading β} (hx : Resumes x x') (hk : ∀ a, Resumes (k a) (k' a)) :
    Resumes (x >>= k) (x' >>= k') where
  ends h := by
    obtain ⟨a, vs, hFirst, hRest⟩ := bind_eq_ok.mp h
    obtain ⟨first, rfl, hx'⟩ := hx.ends hFirst
    obtain ⟨rest, rfl, hk'⟩ := (hk a).ends hRest
    refine ⟨first ++ rest, (List.append_assoc _ _ _).symm, fun us' hNext => ?_⟩
    rw [List.append_assoc, bind_of_ok (hx' (rest ++ us') _)]
    · exact hk' us' hNext
    · rw [List.head?_append, List.head?_append, hNext]
  refused h := by
    rcases bind_eq_error.mp h with hFirst | ⟨a, vs, hFirst, hRest⟩
    · obtain ⟨taken, rfl, hx'⟩ := hx.refused hFirst
      exact ⟨taken, rfl, fun us' => bind_eq_error.mpr (.inl (hx' us'))⟩
    · obtain ⟨first, rfl, hx'⟩ := hx.ends hFirst
      obtain ⟨rest, rfl, hk'⟩ := (hk a).refused hRest
      refine ⟨first ++ rest, (List.append_assoc _ _ _).symm, fun us' => ?_⟩
      rw [List.append_assoc, bind_of_ok (hx' (rest ++ _ :: us') _)]
      · exact hk' us'
      · rw [List.head?_append, List.head?_append]
        rfl

/-- It is enough to know both steps for every next token. -/
theorem byNext (h : ∀ head : Option Token, ∃ y y' : Reading α, Resumes y y' ∧
    ∀ ts : List Token, ts.head? = head → x ts = y ts ∧ x' ts = y' ts) : Resumes x x' where
  ends {ts us a} hRun := by
    obtain ⟨y, y', hy, hSame⟩ := h ts.head?
    rw [(hSame ts rfl).1] at hRun
    obtain ⟨taken, rfl, hy'⟩ := hy.ends hRun
    refine ⟨taken, rfl, fun us' hNext => ?_⟩
    rw [(hSame (taken ++ us') _).2]
    · exact hy' us' hNext
    · rw [List.head?_append, List.head?_append, hNext]
  refused {ts us expected t} hRun := by
    obtain ⟨y, y', hy, hSame⟩ := h ts.head?
    rw [(hSame ts rfl).1] at hRun
    obtain ⟨taken, rfl, hy'⟩ := hy.refused hRun
    refine ⟨taken, rfl, fun us' => ?_⟩
    rw [(hSame (taken ++ t :: us') _).2]
    · exact hy' us'
    · rw [List.head?_append, List.head?_append]
      rfl

theorem get_ite {p : List Token → Bool} {x y : Reading α} :
    (get >>= fun ts => if p ts then x else y) = fun ts => if p ts then x ts else y ts := by
  funext ts
  change (if p ts = true then x else y) ts = _
  cases p ts <;> rfl

theorem branch {p : List Token → Bool} {y y' : Reading α}
    (hp : ∀ {ts us : List Token}, ts.head? = us.head? → p ts = p us)
    (hx : Resumes x x') (hy : Resumes y y') :
    Resumes (fun ts => if p ts then x ts else y ts) (fun ts => if p ts then x' ts else y' ts) := by
  refine byNext fun head => ?_
  have hHead : ∀ ts : List Token, ts.head? = head → p ts = p head.toList := fun ts hts =>
    hp (by rw [hts]; cases head <;> rfl)
  cases hBranch : p head.toList with
  | true => exact ⟨x, x', hx, fun ts hts => by simp [hHead ts hts, hBranch]⟩
  | false => exact ⟨y, y', hy, fun ts hts => by simp [hHead ts hts, hBranch]⟩

end Resumes

/-! ## The steps of the reader -/

theorem isNext_of_head? (h : ts.head? = us.head?) : isNext texts ts = isNext texts us := by
  cases ts <;> cases us <;> simp_all [isNext]

theorem isNextKind_of_head? (h : ts.head? = us.head?) :
    isNextKind kind ts = isNextKind kind us := by
  cases ts <;> cases us <;> simp_all [isNextKind]

theorem nextOperation?_of_head? (h : ts.head? = us.head?) :
    nextOperation? ts = nextOperation? us := by
  cases ts <;> cases us <;> simp_all [nextOperation?]

theorem resumes_next (stop : Nat) : Resumes (next stop) (next stop) where
  ends h := by
    obtain rfl := next_eq_ok.mp h
    exact ⟨[_], rfl, fun us' _ => next_eq_ok.mpr rfl⟩
  refused h := by cases (next_eq_error.mp h).1

theorem resumes_expect (stop : Nat) (texts : List String) :
    Resumes (expect stop texts) (expect stop texts) where
  ends h := by
    obtain ⟨rfl, hText⟩ := expect_eq_ok.mp h
    exact ⟨[_], rfl, fun us' _ => expect_eq_ok.mpr ⟨rfl, hText⟩⟩
  refused h := by
    obtain ⟨⟨⟩, -⟩ | ⟨t, rfl, hText, ⟨⟩⟩ := expect_eq_error.mp h
    exact ⟨[], rfl, fun us' => expect_eq_error.mpr (.inr ⟨_, rfl, hText, rfl⟩)⟩

theorem resumes_expectKind (stop : Nat) (kind : TokenKind) :
    Resumes (expectKind stop kind) (expectKind stop kind) where
  ends h := by
    obtain ⟨rfl, hKind⟩ := expectKind_eq_ok.mp h
    exact ⟨[_], rfl, fun us' _ => expectKind_eq_ok.mpr ⟨rfl, hKind⟩⟩
  refused h := by
    obtain ⟨⟨⟩, -⟩ | ⟨t, rfl, hKind, ⟨⟩⟩ := expectKind_eq_error.mp h
    exact ⟨[], rfl, fun us' => expectKind_eq_error.mpr (.inr ⟨_, rfl, hKind, rfl⟩)⟩

theorem term_nil : term stop [] = .error (.unexpectedEnd stop) [] := rfl

/-- A term starts with a cell and a colon, or is a single token. -/
theorem range_or_single (t : Token) (ts : List Token) :
    (t.kind = .cell ∧ ∃ colon rest, ts = colon :: rest ∧ colon.text = ":") ∨
      (t.kind ≠ .cell ∨ isNext [":"] ts = false) := by
  by_cases hKind : t.kind = .cell
  · cases hNext : isNext [":"] ts with
    | true =>
      obtain ⟨colon, rest, rfl, hText⟩ := isNext_eq_true.mp hNext
      exact .inl ⟨hKind, colon, rest, rfl, List.mem_singleton.mp hText⟩
    | false => exact .inr (.inr rfl)
  · exact .inr (.inl hKind)

theorem resumes_term (stop : Nat) : Resumes (term stop) (term stop) where
  ends {ts us f} h := by
    cases ts with
    | nil => simp [term_nil] at h
    | cons t rest =>
      rcases range_or_single t rest with ⟨hFirst, colon, rest, rfl, hColon⟩ | hSingle
      · obtain ⟨last, rfl, hLast⟩ := (term_of_range hFirst hColon).mp h
        exact ⟨[t, colon, last], rfl, fun us' _ =>
          (term_of_range hFirst hColon).mpr ⟨last, rfl, hLast⟩⟩
      · obtain ⟨hf, rfl⟩ := (term_of_single hSingle).mp h
        refine ⟨[t], rfl, fun us' hNext => ?_⟩
        rw [← isNext_of_head? hNext] at hSingle
        exact (term_of_single hSingle).mpr ⟨hf, rfl⟩
  refused {ts us expected t'} h := by
    cases ts with
    | nil => simp [term_nil] at h
    | cons t rest =>
      rcases range_or_single t rest with ⟨hFirst, colon, rest, rfl, hColon⟩ | hSingle
      · rw [term_of_range_eq_error hFirst hColon] at h
        obtain ⟨taken, rfl, hLast⟩ := (resumes_expectKind stop .cell).refused h
        exact ⟨t :: colon :: taken, rfl, fun us' =>
          (term_of_range_eq_error hFirst hColon).mpr (hLast us')⟩
      · obtain ⟨hNone, hFault, rfl⟩ := (term_of_single_eq_error hSingle).mp h
        cases hFault
        have hKind : t'.kind ≠ .cell := by
          intro hCell
          simp [single, hCell] at hNone
        exact ⟨[], rfl, fun us' => (term_of_single_eq_error (.inl hKind)).mpr ⟨hNone, rfl, rfl⟩⟩

/-- What a descent asks of a deeper one. -/
structure Deepens (stop depth depth' : Nat) : Prop where
  expression : Resumes (expressionWithin stop depth) (expressionWithin stop depth')
  chain : ∀ {waiting items}, WellStacked waiting items →
    Resumes (chainWithin stop depth waiting items) (chainWithin stop depth' waiting items)
  operand : Resumes (operandWithin stop depth) (operandWithin stop depth')
  negative : Resumes (negativeWithin stop depth) (negativeWithin stop depth')
  parenthesized : Resumes (parenthesizedWithin stop depth) (parenthesizedWithin stop depth')
  call : Resumes (callWithin stop depth) (callWithin stop depth')
  arguments : Resumes (argumentsWithin stop depth) (argumentsWithin stop depth')

namespace Deepens

variable {depth' : Nat}

theorem zero (stop depth' : Nat) : Deepens stop 0 depth' := by
  have hThrow {α : Type} (x' : Reading α) : Resumes (MonadExcept.throw .incomplete) x' :=
    .throw (by simp) x'
  exact ⟨hThrow _, fun _ => hThrow _, hThrow _, hThrow _, hThrow _, hThrow _, hThrow _⟩

theorem expression_succ (h : Deepens stop depth depth') :
    Resumes (expressionWithin stop (depth + 1)) (expressionWithin stop (depth' + 1)) := by
  rw [expressionWithin, expressionWithin]
  exact h.operand.bind fun f => h.chain (.first f)

theorem chain_succ (h : Deepens stop depth depth') (hStacks : WellStacked waiting items) :
    Resumes (chainWithin stop (depth + 1) waiting items)
      (chainWithin stop (depth' + 1) waiting items) := by
  -- the next token decides whether the chain goes on, and both descents see the same one
  refine .byNext fun head => ?_
  have hHead : ∀ ts : List Token, ts.head? = head →
      nextOperation? ts = nextOperation? head.toList := fun ts hts =>
    nextOperation?_of_head? (by rw [hts]; cases head <;> rfl)
  cases hNext : nextOperation? head.toList with
  | none =>
    obtain ⟨f, hFinish⟩ := hStacks.finish
    refine ⟨pure f, pure f, .pure f, fun ts hts => ?_⟩
    rw [chain_of_none ((hHead ts hts).trans hNext), chain_of_none ((hHead ts hts).trans hNext),
      hFinish]
    exact ⟨rfl, rfl⟩
  | some o =>
    refine ⟨_, _, (resumes_next stop).bind fun _ => h.operand.bind fun g =>
      h.chain (hStacks.push o g), fun ts hts => ?_⟩
    obtain ⟨t, rest, rfl, ht⟩ := exists_of_nextOperation? ((hHead ts hts).trans hNext)
    exact ⟨chain_of_operates ht _ _, chain_of_operates ht _ _⟩

theorem operand_succ (h : Deepens stop depth depth') :
    Resumes (operandWithin stop (depth + 1)) (operandWithin stop (depth' + 1)) := by
  have hOperand : ∀ n, operandWithin stop (n + 1) = _ := fun n =>
    funext fun ts => Reading.operand_succ ts
  rw [hOperand, hOperand]
  exact .branch isNextKind_of_head? h.call <| .branch isNext_of_head? h.negative <|
    .branch isNext_of_head? h.parenthesized (resumes_term stop)

theorem negative_succ (h : Deepens stop depth depth') :
    Resumes (negativeWithin stop (depth + 1)) (negativeWithin stop (depth' + 1)) := by
  rw [negativeWithin, negativeWithin]
  exact (resumes_expect stop _).bind fun _ => h.expression.bind fun f => .pure _

theorem parenthesized_succ (h : Deepens stop depth depth') :
    Resumes (parenthesizedWithin stop (depth + 1)) (parenthesizedWithin stop (depth' + 1)) := by
  rw [parenthesizedWithin, parenthesizedWithin]
  exact (resumes_expect stop _).bind fun _ => h.expression.bind fun f =>
    (resumes_expect stop _).bind fun _ => .pure f

theorem call_succ (h : Deepens stop depth depth') :
    Resumes (callWithin stop (depth + 1)) (callWithin stop (depth' + 1)) := by
  rw [callWithin, callWithin]
  refine (resumes_expectKind stop _).bind fun function => (resumes_expect stop _).bind fun _ => ?_
  have hEmpty := (resumes_expect stop [")"]).bind fun _ =>
    Resumes.pure (Formula.call function.text [])
  have hArguments := h.arguments.bind fun fs => Resumes.pure (Formula.call function.text fs)
  rw [Resumes.get_ite, Resumes.get_ite]
  exact .branch isNext_of_head? hEmpty hArguments

theorem arguments_succ (h : Deepens stop depth depth') :
    Resumes (argumentsWithin stop (depth + 1)) (argumentsWithin stop (depth' + 1)) := by
  rw [argumentsWithin, argumentsWithin]
  refine h.expression.bind fun f => (resumes_expect stop _).bind fun t => ?_
  cases t.text == "," with
  | true => exact h.arguments.bind fun fs => .pure _
  | false => exact .pure _

end Deepens

/-- A deeper descent sees no more than the one that came to an end. -/
theorem deepens {depth' : Nat} (stop : Nat) (h : depth ≤ depth') : Deepens stop depth depth' := by
  induction depth generalizing depth' with
  | zero => exact .zero stop depth'
  | succ depth ih =>
    obtain ⟨depth', rfl⟩ := Nat.exists_eq_add_of_le' (Nat.one_le_of_lt h)
    have hBelow := ih (Nat.le_of_succ_le_succ h)
    exact {
      expression := hBelow.expression_succ
      chain := hBelow.chain_succ
      operand := hBelow.operand_succ
      negative := hBelow.negative_succ
      parenthesized := hBelow.parenthesized_succ
      call := hBelow.call_succ
      arguments := hBelow.arguments_succ }

end Spreadsheet.Reading
