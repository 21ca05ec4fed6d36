import Spreadsheet.Proofs.Evaluation.Spelling
import Spreadsheet.Proofs.Resolver.Agreement

/-!
# Sheets in other spellings

Two sheets whose formulas differ in the spelling of addresses and names alone are evaluated in
lockstep: cells are looked up, settled and kept in one order, so values, failures and cycles are the
same. Addresses are decoded in formulas, in ranges and in the references that preparation follows;
all three agree on what an address spells.
-/

set_option autoImplicit false

namespace Spreadsheet

open Evaluation Lexer

/-- The second cell is the first one with its formula in another spelling. -/
structure Cell.Respells (cell cell' : Cell) : Prop where
  value : cell'.value = cell.value
  error : cell'.error = cell.error
  formula : Option.Rel Formula.RespellsIn cell.formula cell'.formula

theorem Cell.Respells.sameCell {cell cell' : Cell} (h : cell.Respells cell') :
    SameCell cell cell' := by
  refine ⟨h.value, by rw [h.error], ?_⟩
  rw [Cell.isCircular, Cell.isCircular, h.error]

/-- The second context has the same cells with their formulas in other spellings. -/
structure EvaluationContext.Respells (ctx ctx' : EvaluationContext) : Prop where
  entries : List.Forall₂ (fun e e' => e'.1 = e.1 ∧ e.2.Respells e'.2) ctx.grid.entries
    ctx'.grid.entries
  functions : ctx'.functions = ctx.functions
  rangeLimit : ctx'.rangeLimit = ctx.rangeLimit
  memoize : ctx'.memoize = ctx.memoize
  nestingLimit : ctx'.nestingLimit = ctx.nestingLimit

/-- The same cells are settled, with the same values and failures. -/
def Session.Alike (s s' : Session) : Prop :=
  ∀ c : Coordinate, Option.Rel (Option.Rel SameCell) s.settled[c]? s'.settled[c]?

theorem Session.Alike.mem_iff {s s' : Session} (h : s.Alike s') (c : Coordinate) :
    c ∈ s'.settled ↔ c ∈ s.settled := by
  have hBoth := h c
  rw [← Std.HashMap.isSome_getElem?_iff_mem, ← Std.HashMap.isSome_getElem?_iff_mem]
  generalize s.settled[c]? = x at hBoth ⊢
  generalize s'.settled[c]? = y at hBoth ⊢
  cases hBoth <;> rfl

namespace Resolver

variable {ctx ctx' : EvaluationContext} {c : Coordinate} {text text' : String}
  {found found' : Option Cell}

abbrev StepsAlike {α : Type} (A : α → α → Prop) (x y : Step α) : Prop :=
  EvaluatesAlike Session.Alike A x y

theorem lookup_respells {entries entries' : List (Coordinate × Cell)}
    (h : List.Forall₂ (fun e e' => e'.1 = e.1 ∧ e.2.Respells e'.2) entries entries')
    (c : Coordinate) : Option.Rel Cell.Respells (entries.lookup c) (entries'.lookup c) := by
  induction h with
  | nil => exact .none
  | @cons e e' _ _ hEntry _ ih =>
    obtain ⟨d, cell⟩ := e
    obtain ⟨d', cell'⟩ := e'
    obtain ⟨rfl, hCell⟩ := hEntry
    rw [List.lookup_cons, List.lookup_cons]
    cases c == d' with
    | true => exact .some hCell
    | false => exact ih

theorem sameCell_of_respells (h : Option.Rel Cell.Respells found found') :
    Option.Rel SameCell found found' := by
  cases h with
  | none => exact .none
  | some h => exact .some h.sameCell

theorem formulaOf_respells (h : Option.Rel Cell.Respells found found') :
    Option.Rel Formula.RespellsIn (formulaOf found) (formulaOf found') := by
  cases h with
  | none => exact .none
  | some h => exact h.formula

/-! ## Steps -/

theorem note_alike (m : Moment) : StepsAlike Eq (note m) (note m) := fun _ _ hs =>
  .ok rfl fun c => hs c

theorem lookup_alike (h : ctx.Respells ctx') (c : Coordinate) :
    StepsAlike (Option.Rel Cell.Respells) (lookup ctx c) (lookup ctx' c) :=
  (note_alike _).andThen (.pure (lookup_respells h.entries c))

theorem keep_alike (c : Coordinate) (h : Option.Rel SameCell found found') :
    StepsAlike Eq (keep c found) (keep c found') := by
  intro s t hs
  change Matches _ _ _ (.ok () (s.kept c found)) (.ok () (t.kept c found'))
  refine .ok rfl fun z => ?_
  by_cases hz : z = c
  · rw [hz, Session.kept_settled_self, Session.kept_settled_self]
    exact .some h
  · rw [Session.kept_settled_of_ne _ _ hz, Session.kept_settled_of_ne _ _ hz]
    exact hs z

theorem tree_agrees (h : Formula.RespellsIn text text') :
    Agrees Failure.SameClass Formula.Respells (Recursion.tree text) (Recursion.tree text') := by
  have hParse := Formula.parse_agrees h
  unfold Recursion.tree
  generalize Formula.parse text = r at hParse ⊢
  generalize Formula.parse text' = r' at hParse ⊢
  cases hParse with
  | ok hTree => exact .ok hTree
  | error hFault => exact .error (.formula (FormulaFault.sameClass_parsing hFault))

theorem surroundings_alike (h : ctx.Respells ctx')
    {settle settle' : Coordinate → Step (Option Cell)}
    (hSettle : ∀ z, StepsAlike (Option.Rel SameCell) (settle z) (settle' z)) :
    Formula.SameSurroundings Session.Alike (surroundings ctx settle)
      (surroundings ctx' settle') where
  rangeLimit := h.rangeLimit
  functions := h.functions
  settle := hSettle
  noteCall _ _ := note_alike _

theorem isCircular_eq (fault : FormulaFault) :
    fault.isCircular = (fault.kindName == "CircularReferenceError") := by
  cases fault with
  | parsing fault => cases fault <;> rfl
  | _ => rfl

theorem endsCellOnly_eq (fault : FormulaFault) :
    endsCellOnly fault = (fault.kindName == "CircularReferenceError" ||
      fault.kindName == "EvaluationDepthError") := by
  cases fault with
  | parsing fault => cases fault <;> rfl
  | _ => rfl

/-- Cells that record faults of one class fail alike. -/
theorem sameCell_of_fault {fault fault' : FormulaFault} (h : fault.SameClass fault')
    (formula formula' : Option String) :
    SameCell { error := some fault.message, formula := formula }
      { error := some fault'.message, formula := formula' } :=
  ⟨rfl, rfl, h.marked⟩

theorem settledCell_agrees (c : Coordinate) (text text' : String) {r r' : Except Failure Value}
    (h : Agrees Failure.SameClass Eq r r') :
    Agrees Failure.SameClass SameCell (settledCell c text r) (settledCell c text' r') := by
  cases h with
  | ok h => exact .ok ⟨h.symm, rfl, rfl⟩
  | error h =>
    cases h with
    | numeric fault => exact .error (.numeric fault)
    | tooDeep => exact .error .tooDeep
    | @formula fault fault' h =>
      -- the class of a fault decides whether the cell records it
      have hCircular : fault'.isCircular = fault.isCircular := by
        rw [isCircular_eq, isCircular_eq, h.kindName]
      unfold settledCell
      simp only [hCircular]
      cases fault.isCircular with
      | true => exact .error (.formula h)
      | false =>
        cases c.toAddress with
        | ok address => exact .ok (sameCell_of_fault h _ _)
        | error failure => exact .error (.refl failure)

theorem compute_alike (h : ctx.Respells ctx') {settle settle' : Coordinate → Step (Option Cell)}
    (hSettle : ∀ z, StepsAlike (Option.Rel SameCell) (settle z) (settle' z))
    (c : Coordinate) (hText : Formula.RespellsIn text text') {tree tree' : Option Formula}
    (hTree : treeOf text tree = lift (Recursion.tree text))
    (hTree' : treeOf text' tree' = lift (Recursion.tree text')) :
    StepsAlike SameCell (compute ctx settle c text tree) (compute ctx' settle' c text' tree') := by
  rw [compute_eq, compute_eq]
  refine (note_alike _).andThen ?_
  have hValue : StepsAlike Eq
      (do (← treeOf text tree).evaluate (surroundings ctx settle) : Step Value)
      (do (← treeOf text' tree').evaluate (surroundings ctx' settle')) := by
    rw [hTree, hTree']
    exact (lift_alike (tree_agrees hText)).bind fun f f' hf =>
      Formula.evaluate_alike (surroundings_alike h hSettle) hf
  refine (attempt_alike hValue).bind fun r r' hr => ?_
  exact (note_alike _).andThen (lift_alike (settledCell_agrees c text text' hr))

theorem formula_cases (h : Option.Rel Formula.RespellsIn (formulaOf found) (formulaOf found')) :
    formulaOf found = none ∧ formulaOf found' = none ∨
      ∃ text text', formulaOf found = some text ∧ formulaOf found' = some text' ∧
        Formula.RespellsIn text text' := by
  generalize formulaOf found = x at h ⊢
  generalize formulaOf found' = y at h ⊢
  cases h with
  | none => exact .inl ⟨rfl, rfl⟩
  | some h => exact .inr ⟨_, _, rfl, rfl, h⟩

theorem resolve_alike (h : ctx.Respells ctx') (d : Nat) (w : List Coordinate) (c : Coordinate) :
    StepsAlike (Option.Rel SameCell) (resolve ctx d w c) (resolve ctx' d w c) := by
  induction d using Nat.strong_induction_on generalizing w c with
  | _ d ih =>
    rw [resolve_eq, resolve_eq]
    refine Lockstep.get.bind fun s s' hs => ?_
    have hSettled := hs c
    generalize s.settled[c]? = x at hSettled ⊢
    generalize s'.settled[c]? = y at hSettled ⊢
    cases hSettled with
    | some hCell => exact .pure hCell
    | none =>
      refine .ite Iff.rfl (fun _ => fail_alike (.refl _)) fun _ => ?_
      refine (lookup_alike h c).bind fun found found' hFound => ?_
      -- every way to an answer ends with the same choice to keep it
      have hAnswer : ∀ {cell cell' : Option Cell}, Option.Rel SameCell cell cell' →
          StepsAlike (Option.Rel SameCell)
            (if ctx.memoize = true then (do keep c cell; pure cell) else pure cell)
            (if ctx'.memoize = true then (do keep c cell'; pure cell') else pure cell') := by
        intro cell cell' hCell
        refine .ite (by rw [h.memoize]) (fun _ => ?_) fun _ => .pure hCell
        exact (keep_alike c hCell).andThen (.pure hCell)
      rcases formula_cases (formulaOf_respells hFound) with
        ⟨hNone, hNone'⟩ | ⟨text, text', hText, hText', hRespells⟩
      · simp only [hNone, hNone']
        exact Lockstep.bind (.pure (sameCell_of_respells hFound)) fun _ _ => hAnswer
      · simp only [hText, hText']
        cases d with
        | zero =>
          exact Lockstep.bind (A := Option.Rel SameCell) (.throw .tooDeep) fun _ _ => hAnswer
        | succ d =>
          refine Lockstep.bind (.map ?_ fun _ _ => .some) fun _ _ => hAnswer
          exact compute_alike h (ih d d.lt_succ_self (c :: w)) c hRespells (treeOf_none text)
            (treeOf_none text')

/-! ## Preparation -/

theorem references_respells (h : ctx.Respells ctx') (hText : Formula.RespellsIn text text') :
    Agrees Failure.SameClass Eq (textReferences ctx text) (textReferences ctx' text') := by
  have hTree := tree_agrees hText
  unfold textReferences
  rw [h.rangeLimit]
  generalize Recursion.tree text = r at hTree ⊢
  generalize Recursion.tree text' = r' at hTree ⊢
  cases hTree with
  | ok hTree => exact Formula.references_agrees ctx.rangeLimit hTree
  | error => exact .ok rfl

theorem areSettled_alike (cs : List Coordinate) :
    StepsAlike Eq (areSettled cs) (areSettled cs) := by
  refine Lockstep.get.bind fun s s' hs => .pure ?_
  have hContains : ∀ z, s'.settled.contains z = s.settled.contains z := by
    intro z
    rw [Bool.eq_iff_iff]
    exact hs.mem_iff z
  simp only [hContains]

theorem prepareFormula_alike (h : ctx.Respells ctx')
    {prepare prepare' : List Coordinate → Coordinate → Step (List Coordinate)}
    (hPrepare : ∀ met z, StepsAlike Eq (prepare met z) (prepare' met z)) (met : List Coordinate)
    (c : Coordinate) (hText : Formula.RespellsIn text text') :
    StepsAlike Eq (prepareFormula ctx prepare met c text)
      (prepareFormula ctx' prepare' met c text') := by
  rw [prepareFormula_eq, prepareFormula_eq]
  simp only [referencesOf_parse]
  refine (lift_alike (references_respells h hText)).bindEq fun references => ?_
  have hFold : StepsAlike Eq (references.foldlM prepare (c :: met))
      (references.foldlM prepare' (c :: met)) := by
    refine .foldlM (fun z _ met' _ hMet => ?_) rfl
    rw [← hMet]
    exact hPrepare met' z
  refine hFold.bindEq fun met' => (areSettled_alike references).bindEq fun settled => ?_
  refine .ite Iff.rfl (fun _ => ?_) fun _ => .pure rfl
  rw [h.nestingLimit]
  refine (compute_alike h (resolve_alike h _ [c]) c hText (treeOf_parse text)
    (treeOf_parse text')).bind fun cell cell' hCell => ?_
  exact (keep_alike c (.some hCell)).andThen (.pure rfl)

theorem prepare_alike (h : ctx.Respells ctx') (d : Nat) (met : List Coordinate) (c : Coordinate) :
    StepsAlike Eq (prepare ctx d met c) (prepare ctx' d met c) := by
  induction d using Nat.strong_induction_on generalizing met c with
  | _ d ih =>
    rw [prepare_eq, prepare_eq]
    refine Lockstep.get.bind fun s s' hs => .ite ?_ (fun _ => .pure rfl) fun _ => ?_
    · simp only [Bool.or_eq_true, Std.HashMap.contains_iff_mem, hs.mem_iff]
    · refine (lookup_alike h c).bind fun found found' hFound => ?_
      rcases formula_cases (formulaOf_respells hFound) with
        ⟨hNone, hNone'⟩ | ⟨text, text', hText, hText', hRespells⟩
      · simp only [hNone, hNone']
        exact (keep_alike c (sameCell_of_respells hFound)).andThen (.pure rfl)
      · simp only [hText, hText']
        cases d with
        | zero => exact .pure rfl
        | succ d => exact prepareFormula_alike h (ih d d.lt_succ_self) met c hRespells

theorem prepareAll_alike (h : ctx.Respells ctx') (roots : List Coordinate) :
    StepsAlike Eq (prepareAll ctx roots) (prepareAll ctx' roots) := by
  have hSize : ctx'.grid.size = ctx.grid.size := h.entries.length_eq.symm
  rw [prepareAll_eq, prepareAll_eq]
  refine .ite (by rw [h.memoize]) (fun _ => ?_) fun _ => .pure rfl
  have hFold : StepsAlike Eq (roots.foldlM (prepare ctx ctx.grid.size) [])
      (roots.foldlM (prepare ctx' ctx'.grid.size) []) := by
    refine .foldlM (fun z _ met _ hMet => ?_) rfl
    rw [← hMet, hSize]
    exact prepare_alike h ctx.grid.size met z
  exact hFold.andThen (.pure rfl)

/-! ## Requests -/

theorem reportDepth_alike {α : Type} {A : α → α → Prop} {x y : Step α}
    (address : Except Failure (Option String))
    (h : StepsAlike A x y) : StepsAlike A (reportDepth address x) (reportDepth address y) := by
  refine (attempt_alike h).bind fun r r' hr => ?_
  cases hr with
  | ok h => exact .pure h
  | error h =>
    cases h with
    | tooDeep => exact .throw (.refl _)
    | formula h => exact .throw (.formula h)
    | numeric fault => exact .throw (.numeric fault)

theorem resolveCell_alike (h : ctx.Respells ctx') (c : Coordinate) :
    StepsAlike (Option.Rel SameCell) (resolveCell ctx c) (resolveCell ctx' c) := by
  rw [resolveCell_eq, resolveCell_eq, h.nestingLimit]
  exact resolve_alike h ctx.nestingLimit [] c

theorem evaluate_alike (h : ctx.Respells ctx') {f f' : Formula} (hf : f.Respells f') :
    StepsAlike Eq (evaluate ctx f) (evaluate ctx' f') := by
  rw [evaluate_eq, evaluate_eq]
  rw [h.rangeLimit]
  refine (lift_alike (Formula.references_agrees ctx.rangeLimit hf)).bindEq fun roots => ?_
  refine (prepareAll_alike h roots).andThen (reportDepth_alike (.ok none) ?_)
  exact Formula.evaluate_alike (surroundings_alike h (resolveCell_alike h)) hf

theorem evaluateText_alike (h : ctx.Respells ctx') (hText : Formula.RespellsIn text text') :
    StepsAlike Eq (evaluateText ctx text) (evaluateText ctx' text') := by
  unfold evaluateText
  rw [treeOf_none, treeOf_none]
  exact (lift_alike (tree_agrees hText)).bind fun f f' => evaluate_alike h

theorem evaluateCell_alike (h : ctx.Respells ctx') (c : Coordinate) :
    StepsAlike (Option.Rel SameCell) (evaluateCell ctx c) (evaluateCell ctx' c) :=
  (prepareAll_alike h [c]).andThen (reportDepth_alike _ (resolveCell_alike h c))

/-- The entries stand at one coordinate, and their cells have the same value and failed alike. -/
def SameEntry (entry entry' : Coordinate × Cell) : Prop :=
  entry'.1 = entry.1 ∧ SameCell entry.2 entry'.2

theorem settledEntry_agrees {entry entry' : Coordinate × Cell} (hEntry : entry'.1 = entry.1)
    {r r' : Except Failure (Option Cell)}
    (h : Agrees Failure.SameClass (Option.Rel SameCell) r r') :
    Agrees Failure.SameClass (Option.Rel SameEntry) (settledEntry entry r)
      (settledEntry entry' r') := by
  cases h with
  | ok h =>
    cases h with
    | none => exact .ok .none
    | some h => exact .ok (.some ⟨hEntry, h⟩)
  | error h =>
    cases h with
    | numeric fault => exact .error (.numeric fault)
    | tooDeep => exact .error .tooDeep
    | @formula fault fault' h =>
      have hEnds : endsCellOnly fault' = endsCellOnly fault := by
        rw [endsCellOnly_eq, endsCellOnly_eq, h.kindName]
      unfold settledEntry
      simp only [hEnds]
      cases endsCellOnly fault with
      | true => exact .ok (.some ⟨hEntry, sameCell_of_fault h _ _⟩)
      | false => exact .error (.formula h)

theorem evaluateEntries_alike (h : ctx.Respells ctx') {entries entries' : List (Coordinate × Cell)}
    (hEntries : List.Forall₂ (fun e e' => e'.1 = e.1 ∧ e.2.Respells e'.2) entries entries') :
    StepsAlike (List.Forall₂ SameEntry) (evaluateEntries ctx entries)
      (evaluateEntries ctx' entries') := by
  induction hEntries with
  | nil => exact .pure .nil
  | @cons entry entry' rest rest' hEntry _ ih =>
    rw [evaluateEntries, evaluateEntries]
    have hFirst : StepsAlike (Option.Rel SameEntry) (evaluateEntry ctx entry)
        (evaluateEntry ctx' entry') := by
      unfold evaluateEntry
      rw [hEntry.1]
      exact (attempt_alike (evaluateCell_alike h entry.1)).bind fun r r' hr =>
        lift_alike (settledEntry_agrees hEntry.1 hr)
    refine hFirst.bind fun settled settled' hSettled => ih.bind fun others others' hOthers => ?_
    cases hSettled with
    | none => exact .pure hOthers
    | some h => exact .pure (.cons h hOthers)

theorem alike_empty : Session.Alike {} {} := by
  intro c
  simp only [Std.HashMap.getElem?_empty]
  exact .none

/-- A formula and a sheet in other spellings give the same values and fail alike: a formula with the
same value or with a failure of the same class, and a whole pass with the same value at every
coordinate, the same failed cells, and the same circular ones. -/
theorem spelling_is_irrelevant (h : ctx.Respells ctx') :
    (∀ {text text'}, Formula.RespellsIn text text' → Agrees Failure.SameClass Eq
      ((evaluateText ctx text).outcome {}) ((evaluateText ctx' text').outcome {})) ∧
    (∀ {f f' : Formula}, f.Respells f' → Agrees Failure.SameClass Eq
      ((evaluate ctx f).outcome {}) ((evaluate ctx' f').outcome {})) ∧
    Agrees Failure.SameClass (List.Forall₂ SameEntry)
      ((evaluateGrid ctx).outcome {}) ((evaluateGrid ctx').outcome {}) :=
  ⟨fun hText => outcome_agrees (evaluateText_alike h hText) alike_empty,
    fun hf => outcome_agrees (evaluate_alike h hf) alike_empty,
    outcome_agrees (evaluateEntries_alike h h.entries) alike_empty⟩

/-- The loop sheet in lower case, with zeros in front of its rows. -/
def lowerLoopSheet : EvaluationContext where
  grid := ⟨[(⟨0, 0⟩, { formula := some "=a01" }), (⟨0, 1⟩, { formula := some "=sum(c001,a1)" }),
    (⟨0, 2⟩, { value := .int 7 })], by decide⟩
  functions := Builtin.registry

/-- The sheet has a cycle, a cell above it and a literal; the formula adds up a range. -/
theorem spelling_is_irrelevant_on_loopSheet :
    loopSheet.Respells lowerLoopSheet ∧ Formula.RespellsIn "=SUM(C1:C1)" "=Sum(C1:c01)" ∧
      (evaluateText loopSheet "=SUM(C1:C1)").outcome {} = .ok (.int 7) ∧
      (evaluateText lowerLoopSheet "=Sum(C1:c01)").outcome {} = .ok (.int 7) ∧
      Agrees Failure.SameClass (List.Forall₂ SameEntry) ((evaluateGrid loopSheet).outcome {})
        ((evaluateGrid lowerLoopSheet).outcome {}) := by
  have hAddress : ∀ (letter letter' : Char) (zeros : Nat), isLetter letter = true →
      letter'.toUpper = letter.toUpper → zeros ≤ 2 →
      Respells .cell [letter, '1'] (letter' :: (List.replicate zeros '0' ++ ['1'])) := by
    intro letter letter' zeros hLetter hCase hZeros
    have hLetters : AreLetters [letter] := by simpa [AreLetters] using hLetter
    have hSame : [letter'].map Char.toUpper = [letter].map Char.toUpper := by simp [hCase]
    have hDigits : AreDigits ['1'] := List.all_eq_true.mp rfl
    have hLimit : zeros + ['1'].length ≤ Decimal.digitLimit := by
      simp only [List.length_singleton, Decimal.digitLimit]
      omega
    exact .intro zeros (List.cons_ne_nil _ _) hLetters hSame (List.cons_ne_nil _ _) hDigits
      (.inr hLimit)
  have hSymbol : ∀ c, isPunctuation c = true → Respells .punctuation [c] [c] := fun c hc =>
    .refl ⟨c, hc, rfl⟩
  have hName : ∀ name : List Char, name.map Char.toUpper = ['S', 'U', 'M'] →
      Respells .identifier ['S', 'U', 'M'] name := fun name hCase =>
    ⟨List.cons_ne_nil _ _, List.all_eq_true.mp rfl, hCase⟩
  have hCell : Formula.RespellsIn "=A1" "=a01" := by
    have hText := RespellsText.lexeme (hAddress 'A' 'a' 1 rfl rfl (by decide)) endsBefore_nil .done
    exact hText
  have hSum : Formula.RespellsIn "=SUM(C1,A1)" "=sum(c001,a1)" := by
    have hText := RespellsText.lexeme (hName ['s', 'u', 'm'] rfl) (endsBefore_cons rfl)
      (.lexeme (hSymbol '(' rfl) nofun
        (.lexeme (hAddress 'C' 'c' 2 rfl rfl (by decide)) (endsBefore_cons rfl)
          (.lexeme (hSymbol ',' rfl) nofun
            (.lexeme (hAddress 'A' 'a' 0 rfl rfl (by decide)) (endsBefore_cons rfl)
              (.lexeme (hSymbol ')' rfl) nofun .done)))))
    exact hText
  have hRange : Formula.RespellsIn "=SUM(C1:C1)" "=Sum(C1:c01)" := by
    have hText := RespellsText.lexeme (hName ['S', 'u', 'm'] rfl) (endsBefore_cons rfl)
      (.lexeme (hSymbol '(' rfl) nofun
        (.lexeme (hAddress 'C' 'C' 0 rfl rfl (by decide)) (endsBefore_cons rfl)
          (.lexeme (hSymbol ':' rfl) nofun
            (.lexeme (hAddress 'C' 'c' 1 rfl rfl (by decide)) (endsBefore_cons rfl)
              (.lexeme (hSymbol ')' rfl) nofun .done)))))
    exact hText
  have hSheets : loopSheet.Respells lowerLoopSheet :=
    ⟨.cons ⟨rfl, rfl, rfl, .some hCell⟩ (.cons ⟨rfl, rfl, rfl, .some hSum⟩
      (.cons ⟨rfl, rfl, rfl, .none⟩ .nil)), rfl, rfl, rfl, rfl⟩
  obtain ⟨hTexts, -, hGrids⟩ := spelling_is_irrelevant hSheets
  have hValue : (evaluateText loopSheet "=SUM(C1:C1)").outcome {} = .ok (.int 7) := by cbv
  have hSame := hTexts hRange
  rw [hValue] at hSame
  generalize (evaluateText lowerLoopSheet "=Sum(C1:c01)").outcome {} = other at hSame ⊢
  cases hSame with
  | ok h => exact ⟨hSheets, hRange, hValue, h ▸ rfl, hGrids⟩

end Resolver
end Spreadsheet
