import Spreadsheet.Display
import Spreadsheet.Proofs.Evaluation.Marks
import Spreadsheet.Proofs.Evaluation.Numeric
import Spreadsheet.Proofs.Formula.Rendering
import Spreadsheet.Proofs.Function.Builtin
import Spreadsheet.Proofs.Resolver.Alone

/-!
# Cells marked as circular

A pass keeps the message of a fault and not the fault, so a circular reference shows in the first
words of the message alone. The marked cells are those that a circular reference ends when they are
asked for alone: no failure of a formula is worded like one by accident, and no cell captures one.
-/

set_option autoImplicit false

namespace Spreadsheet

open Lexer Evaluation

/-- No fault that a function reports as it is carries the mark. -/
def Registry.MarksNothing (r : Registry) : Prop :=
  ∀ fault, r.Reports fault → isMarked fault.message = false

theorem Registry.MarksNothing.reportsNoCycle {r : Registry} (h : r.MarksNothing) :
    r.ReportsNoCycle := by
  intro name f hFunction arguments fault hFault
  cases fault with
  | circular path =>
    have hMarked := h _ ⟨name, f, arguments, hFunction, hFault⟩
    rw [FormulaFault.isMarked_circular path] at hMarked
    cases hMarked
  | _ => rfl

namespace Cell

variable {cell : Cell}

theorem display_of_isCircular (h : cell.isCircular = true) : cell.display = .ok "#CIRC!" := by
  cases hError : cell.error with
  | none => simp [isCircular, hError] at h
  | some message =>
    rw [display, hError, h]
    rfl

theorem display_of_isSome_error (hError : cell.error.isSome = true) (h : cell.isCircular = false) :
    cell.display = .ok "#ERR!" := by
  obtain ⟨message, hMessage⟩ := Option.isSome_iff_exists.mp hError
  rw [display, hMessage, h]
  rfl

end Cell

/-! ## The messages of failures -/

/-- The failure carries the mark exactly if it is a circular reference. -/
def Failure.IsMarkedRightly (e : Failure) : Prop :=
  ∀ fault, e = .formula fault → isMarked fault.message = fault.isCircular

theorem isMarkedRightly_of_not_functionFailed {fault : FormulaFault}
    (h : ∀ name text, fault ≠ .functionFailed name text) :
    (Failure.formula fault).IsMarkedRightly := by
  rintro _ ⟨⟩
  exact FormulaFault.isMarked_message h

theorem isMarkedRightly_of_not_recordable {e : Failure} (h : ¬ Recursion.Recordable e) :
    e.IsMarkedRightly := by
  rintro fault rfl
  cases fault with
  | circular path => exact FormulaFault.isMarked_circular path
  | _ => exact absurd ⟨_, rfl, rfl⟩ h

namespace Formula

theorem PlainFailure.ne_functionFailed {fault : FormulaFault} (h : PlainFailure (.formula fault))
    (name text : String) : fault ≠ .functionFailed name text := by
  rintro rfl
  cases h

theorem FaultSource.isMarked {functions : Registry} {parts : List Formula} {fault : FormulaFault}
    (h : FaultSource functions parts fault) (hFunctions : functions.MarksNothing)
    (hParts : ∀ g ∈ parts, g.IsSpelled) : isMarked fault.message = fault.isCircular := by
  cases h with
  | plain hPlain => exact FormulaFault.isMarked_message hPlain.ne_functionFailed
  | dependent address cause => exact FormulaFault.isMarked_message nofun
  | reported hReports =>
    obtain ⟨name, f, arguments, hFunction, hFault⟩ := id hReports
    rw [hFunctions fault hReports]
    exact (hFunctions.reportsNoCycle name f hFunction arguments fault hFault).symm
  | failed hCall text =>
    have hLetters := (hParts _ hCall).1.2
    exact FormulaFault.isMarked_functionFailed _ (isMarked_named hLetters text)

end Formula

namespace Recursion

variable {ctx : EvaluationContext} {A : Coordinate → Except Failure (Option Cell)} {text : String}
  {e : Failure}

/-- The failures of a formula that was read are marked rightly if those of its cells are. -/
theorem isMarkedRightly_of_textValue (hFunctions : ctx.functions.MarksNothing)
    (hA : ∀ z, z.IsAddressable → ∀ e, A z = .error e → e.IsMarkedRightly)
    (h : textValue ctx A text = .error e) : e.IsMarkedRightly := by
  cases hTree : tree text with
  | error e' =>
    obtain ⟨fault, rfl⟩ := Resolver.tree_error hTree
    rw [textValue, hTree] at h
    cases h
    apply isMarkedRightly_of_not_functionFailed
    rintro name text ⟨⟩
  | ok f =>
    have hSpelled := Formula.isSpelled_of_parse (tree_eq_ok.mp hTree)
    rw [textValue, hTree] at h
    have hBears : Formula.Bears Failure.IsMarkedRightly f.nodes (f.Asks ctx.rangeLimit)
        (surroundings ctx A) := by
      refine ⟨fun fault hSource => ?_, fun _ _ _ _ => ?_, fun _ _ => failsOnly_pure _,
        fun z hz => failsOnly_lift (hA z hz.isAddressable)⟩
      · rintro _ ⟨⟩
        exact hSource.isMarked hFunctions fun g hg => hSpelled.of_mem_nodes hg
      · rintro _ ⟨⟩
    exact (f.evaluate_bears hBears).outcome h

end Recursion

namespace Resolver

variable {ctx : EvaluationContext} {s t : Session} {c : Coordinate} {cell : Cell}
  {results : List (Coordinate × Cell)} {text : String}

/-! ## The results of a pass -/

/-- No circular reference is captured in a cell that settles. -/
theorem isCircular_of_settled (hFunctions : ctx.functions.MarksNothing) {d : Nat}
    (hText : formulaOf (ctx.grid.get? c) = some text)
    (h : Recursion.settleWithin ctx d [] c = .ok (some cell)) : cell.isCircular = false := by
  obtain ⟨d, -, hSettled⟩ := Recursion.exists_settledBy hText h
  obtain ⟨hHolds, -⟩ := holds_of_settledBy hSettled
  cases hValue : Recursion.textValue ctx (Recursion.settleWithin ctx d [c]) text with
  | ok v =>
    rw [hValue] at hHolds
    rw [Cell.isCircular, hHolds.1]
  | error e =>
    have hRight := Recursion.isMarkedRightly_of_textValue hFunctions
      (fun z hz e he => isMarkedRightly_of_not_recordable
        (Recursion.settleWithin_error_of_isAddressable hz he)) hValue
    obtain ⟨fault, rfl, hCircular⟩ := Recursion.recordable_of_settledBy hSettled hValue
    rw [hValue] at hHolds
    obtain ⟨_, ⟨⟩, hError, -⟩ := hHolds
    rw [Cell.isCircular, hError]
    exact (hRight fault rfl).trans hCircular

theorem isCircular_failedCell (source : Cell) {fault : FormulaFault}
    (h : endsCellOnly fault = true) : (failedCell source fault).isCircular = fault.isCircular := by
  have hNot : ∀ name text, fault ≠ .functionFailed name text := by
    rintro name text rfl
    cases h
  exact FormulaFault.isMarked_message hNot

/-- A result is marked exactly if the evaluation of its cell met a circular reference. -/
theorem isCircular_result_iff (hFunctions : ctx.functions.MarksNothing) (hs : s.Faithful ctx)
    {source : Cell} (hGrid : ctx.grid.get? c = some source)
    (hSource : source.formula = none → source.isCircular = false)
    (hEntry : settledEntry (c, source) ((evaluateCell ctx c).outcome s) = .ok (some (c, cell))) :
    cell.isCircular = true ↔
      ∃ path, (evaluateCell ctx c).outcome s = .error (.formula (.circular path)) := by
  cases hOutcome : (evaluateCell ctx c).outcome s with
  | error e =>
    rw [hOutcome] at hEntry
    obtain ⟨fault, rfl, hEnds, rfl⟩ := settledEntry_of_error hEntry
    rw [isCircular_failedCell source hEnds]
    cases fault with
    | circular path => exact iff_of_true rfl ⟨path, rfl⟩
    | nestedTooDeeply address => exact iff_of_false nofun nofun
    | _ => cases hEnds
  | ok answer =>
    refine iff_of_false (Bool.eq_false_iff.mp ?_) nofun
    rw [hOutcome] at hEntry
    cases hFormula : source.formula with
    | none =>
      rw [← hOutcome] at hEntry
      rw [eq_of_literal_entry hs hGrid hFormula hEntry]
      exact hSource hFormula
    | some text =>
      obtain rfl := settledEntry_of_ok hEntry
      obtain ⟨t, hRun⟩ := exists_of_outcome_ok hOutcome
      have hText : formulaOf (ctx.grid.get? c) = some text := by rw [hGrid]; exact hFormula
      exact isCircular_of_settled hFunctions hText (settleWithin_of_evaluateCell hs hRun)

/-- The cell, asked for alone, ends in a circular reference. -/
def EndsCircular (ctx : EvaluationContext) (c : Coordinate) : Prop :=
  ∃ path, (evaluateCell ctx c).outcome {} = .error (.formula (.circular path))

/-- A pass that returns, whatever cells and formulas were asked for before, marks exactly the cells
that a circular reference ends when they are asked for alone. These cells are displayed as circular
and all other cells that failed as errors. -/
theorem circular_marking_is_exact {before : List Request} (hBefore : ∀ c, .resolve c ∉ before)
    (hLiterals : ∀ c source, ctx.grid.get? c = some source → source.formula = none →
      source.isCircular = false)
    (hFunctions : ctx.functions.MarksNothing)
    (hRun : evaluateGrid ctx (after ctx before) = .ok results t) :
    results.map (·.1) = ctx.grid.coordinates ∧ ∀ c cell, (c, cell) ∈ results →
      (cell.isCircular = true ↔ EndsCircular ctx c) ∧
      (EndsCircular ctx c → cell.display = .ok "#CIRC!") ∧
      (cell.error.isSome = true → ¬ EndsCircular ctx c → cell.display = .ok "#ERR!") := by
  have hs := after_faithful ctx before
  have hNoCycle := hFunctions.reportsNoCycle
  refine ⟨coordinates_of_evaluateGrid hs hRun, fun c cell hMem => ?_⟩
  have hMarked : cell.isCircular = true ↔ EndsCircular ctx c := by
    obtain ⟨source, u, hSource, hVisit, hEntry⟩ := mem_of_evaluateEntries hRun hMem
    have hGrid : ctx.grid.get? c = some source := Grid.get?_eq_some_iff.mpr hSource
    rw [isCircular_result_iff hFunctions (visits_faithful hs hVisit) hGrid
      (hLiterals c source hGrid) hEntry]
    exact exists_congr fun path => circular_in_pass_iff hNoCycle hs
      (fun hOn => after_charted hNoCycle hOn hBefore) hRun hVisit hEntry
  refine ⟨hMarked, fun hEnds => ?_, fun hFailed hNot => ?_⟩
  · exact Cell.display_of_isCircular (hMarked.mpr hEnds)
  · exact Cell.display_of_isSome_error hFailed (Bool.eq_false_iff.mpr (hNot ∘ hMarked.mp))

/-- A cell on a cycle, one above it, one that is too far above it, and one that failed before. -/
def markedSheet : EvaluationContext where
  grid := ⟨[(⟨0, 0⟩, { formula := some "=A1" }), (⟨0, 1⟩, { formula := some "=A1" }),
    (⟨0, 2⟩, { formula := some "=B1" }), (⟨0, 3⟩, { error := some "worn" })], by decide⟩
  functions := Builtin.registry
  nestingLimit := 2

/-- The session after a request for the cell above the cycle. -/
def markedSession : Session := after markedSheet [.cell ⟨0, 1⟩]

theorem evaluateGrid_markedSheet : (evaluateGrid markedSheet).outcome markedSession =
    .ok [(⟨0, 0⟩, failedCell { formula := some "=A1" } (.circular [⟨0, 0⟩, ⟨0, 0⟩])),
      (⟨0, 1⟩, failedCell { formula := some "=A1" } (.circular [⟨0, 0⟩, ⟨0, 0⟩])),
      (⟨0, 2⟩, failedCell { formula := some "=B1" } (.nestedTooDeeply (some "C1"))),
      (⟨0, 3⟩, { error := some "worn" })] := by
  have hOn : (evaluateCell markedSheet ⟨0, 0⟩).outcome markedSession =
      .error (.formula (.circular [⟨0, 0⟩, ⟨0, 0⟩])) := by cbv
  have hAbove : (evaluateCell markedSheet ⟨0, 1⟩).outcome
      ((evaluateCell markedSheet ⟨0, 0⟩).final markedSession) =
      .error (.formula (.circular [⟨0, 0⟩, ⟨0, 0⟩])) := by cbv
  have hDeep : (evaluateCell markedSheet ⟨0, 2⟩).outcome
      ((evaluateCell markedSheet ⟨0, 1⟩).final
        ((evaluateCell markedSheet ⟨0, 0⟩).final markedSession)) =
      .error (.formula (.nestedTooDeeply (some "C1"))) := by cbv
  have hWorn : (evaluateCell markedSheet ⟨0, 3⟩).outcome
      ((evaluateCell markedSheet ⟨0, 2⟩).final ((evaluateCell markedSheet ⟨0, 1⟩).final
        ((evaluateCell markedSheet ⟨0, 0⟩).final markedSession))) =
      .ok (some { error := some "worn" }) := by cbv
  refine outcome_evaluateEntries_cons (x := some _) (by rw [hOn]; rfl) ?_
  refine outcome_evaluateEntries_cons (x := some _) (by rw [hAbove]; rfl) ?_
  refine outcome_evaluateEntries_cons (x := some _) (by rw [hDeep]; rfl) ?_
  exact outcome_evaluateEntries_cons (x := some _) (by rw [hWorn]; rfl) rfl

theorem circular_marking_is_exact_on_markedSheet :
    (∀ c, .resolve c ∉ [Request.cell ⟨0, 1⟩]) ∧
    (∀ c source, markedSheet.grid.get? c = some source → source.formula = none →
      source.isCircular = false) ∧
    markedSheet.functions.MarksNothing ∧
    ∃ looped above deep worn t,
      evaluateGrid markedSheet (after markedSheet [.cell ⟨0, 1⟩]) =
        .ok [(⟨0, 0⟩, looped), (⟨0, 1⟩, above), (⟨0, 2⟩, deep), (⟨0, 3⟩, worn)] t ∧
      looped.isCircular = true ∧ looped.display = .ok "#CIRC!" ∧
      above.isCircular = true ∧ above.display = .ok "#CIRC!" ∧
      deep.isCircular = false ∧ deep.display = .ok "#ERR!" ∧
      worn.isCircular = false ∧ worn.display = .ok "#ERR!" := by
  have hLiterals : ∀ c source, markedSheet.grid.get? c = some source → source.formula = none →
      source.isCircular = false := by
    intro c source hSource hFormula
    have hMem := Grid.get?_eq_some_iff.mp hSource
    simp only [markedSheet, List.mem_cons, Prod.mk.injEq, List.not_mem_nil, or_false] at hMem
    rcases hMem with ⟨-, rfl⟩ | ⟨-, rfl⟩ | ⟨-, rfl⟩ | ⟨-, rfl⟩
    · cases hFormula
    · cases hFormula
    · cases hFormula
    · decide
  have hFunctions : markedSheet.functions.MarksNothing := fun _ => Builtin.isMarked_of_registry
  have hBefore : ∀ c, .resolve c ∉ [Request.cell ⟨0, 1⟩] := by simp
  obtain ⟨t, hRun⟩ := exists_of_outcome_ok evaluateGrid_markedSheet
  obtain ⟨-, hMarks⟩ := circular_marking_is_exact hBefore hLiterals hFunctions hRun
  have hLooped : EndsCircular markedSheet ⟨0, 0⟩ := ⟨[⟨0, 0⟩, ⟨0, 0⟩], by cbv⟩
  have hAbove : EndsCircular markedSheet ⟨0, 1⟩ := ⟨[⟨0, 0⟩, ⟨0, 0⟩], by cbv⟩
  have hDeep : ¬ EndsCircular markedSheet ⟨0, 2⟩ := by
    have hAlone : (evaluateCell markedSheet ⟨0, 2⟩).outcome {} =
        .error (.formula (.nestedTooDeeply (some "C1"))) := by cbv
    rintro ⟨path, hPath⟩
    rw [hAlone] at hPath
    cases hPath
  have hWorn : ¬ EndsCircular markedSheet ⟨0, 3⟩ := by
    have hAlone : (evaluateCell markedSheet ⟨0, 3⟩).outcome {} =
        .ok (some { error := some "worn" }) := by cbv
    rintro ⟨path, hPath⟩
    rw [hAlone] at hPath
    cases hPath
  obtain ⟨hMark₁, hShow₁, -⟩ := hMarks ⟨0, 0⟩ _ (.head _)
  obtain ⟨hMark₂, hShow₂, -⟩ := hMarks ⟨0, 1⟩ _ (.tail _ (.head _))
  obtain ⟨hMark₃, -, hShow₃⟩ := hMarks ⟨0, 2⟩ _ (.tail _ (.tail _ (.head _)))
  obtain ⟨hMark₄, -, hShow₄⟩ := hMarks ⟨0, 3⟩ _ (.tail _ (.tail _ (.tail _ (.head _))))
  exact ⟨hBefore, hLiterals, hFunctions, _, _, _, _, t, hRun, hMark₁.mpr hLooped, hShow₁ hLooped,
    hMark₂.mpr hAbove, hShow₂ hAbove, Bool.eq_false_iff.mpr (hDeep ∘ hMark₃.mp), hShow₃ rfl hDeep,
    Bool.eq_false_iff.mpr (hWorn ∘ hMark₄.mp), hShow₄ rfl hWorn⟩

end Resolver
end Spreadsheet
