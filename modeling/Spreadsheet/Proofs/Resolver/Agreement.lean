import Spreadsheet.Proofs.Function.Builtin
import Spreadsheet.Proofs.Resolver.Orderly

/-!
# Memory, history and order make no difference

In an orderly context a request ends alike with memory on and off, after any other requests, and for
every order of the grid. Nesting beyond the limit is left aside: where a request gets too deep, or a
cell of a pass does, nothing is said about it.
-/

set_option autoImplicit false

namespace Spreadsheet

open Evaluation

namespace Resolver

variable {ctx ctx' : EvaluationContext} {s s' t : Session} {c : Coordinate}

theorem plainAnswer_eq (hSame : Recursion.SameCells ctx ctx') (hGrid : ctx'.grid = ctx.grid)
    (r : Request) : r.plainAnswer ctx' = r.plainAnswer ctx := by
  have hPass : ∀ entries, plainPass ctx' entries = plainPass ctx entries := by
    intro entries
    induction entries with
    | nil => rfl
    | cons entry rest ih => rw [plainPass, plainPass, ih, hSame.settle_eq]
  cases r with
  | value f =>
    rw [Request.plainAnswer, Request.plainAnswer, hSame.rangeLimit, hSame.settle_eq,
      hSame.value_eq]
  | cell c => rw [Request.plainAnswer, Request.plainAnswer, hSame.settle_eq]
  | resolve c => rw [Request.plainAnswer, Request.plainAnswer, hSame.settle_eq]
  | pass => rw [Request.plainAnswer, Request.plainAnswer, hGrid, hPass]

/-- Two passes that return give the same cell at every coordinate where neither gets too deep. -/
def PassesAgree (ctx : EvaluationContext) (s : Session) (ctx' : EvaluationContext) (s' : Session) :
    Prop :=
  ∀ results t results' t', evaluateGrid ctx s = .ok results t →
    evaluateGrid ctx' s' = .ok results' t' →
    ∀ c cell, ¬ DeepAt ctx s c → ¬ DeepAt ctx' s' c →
      ((c, cell) ∈ results ↔ (c, cell) ∈ results')

/-- A result of a pass that does not get too deep there is the one of plain recursion. -/
theorem settledEntry_of_mem_results (h : ctx.IsOrderly) (hs : s.Faithful ctx)
    {results : List (Coordinate × Cell)} (hRun : evaluateGrid ctx s = .ok results t) {cell : Cell}
    (hMem : (c, cell) ∈ results) (hDeep : ¬ DeepAt ctx s c) :
    ∃ source, ctx.grid.get? c = some source ∧
      settledEntry (c, source) (Recursion.settle ctx [] c) = .ok (some (c, cell)) := by
  obtain ⟨source, u, hSource, hVisit, hEntry⟩ := mem_of_evaluateEntries hRun hMem
  have hu : u.Faithful ctx := visits_faithful hs hVisit
  refine ⟨source, Grid.get?_eq_some_iff.mpr hSource, ?_⟩
  rcases evaluateCell_outcome h hu c with hSame | hOver
  · rw [← hSame]
    exact hEntry
  · exact absurd ⟨u, hVisit, hOver⟩ hDeep

theorem passesAgree (h : ctx.IsOrderly) (hSame : Recursion.SameCells ctx ctx') {s' : Session}
    (hs : s.Faithful ctx) (hs' : s'.Faithful ctx') : PassesAgree ctx s ctx' s' := by
  have h' := isOrderly_of_sameCells hSame h
  intro results t results' t' hRun hRun' c cell hDeep hDeep'
  have hUnique : ∀ x x', (c, x) ∈ results → (c, x') ∈ results' → x = x' := by
    intro x x' hx hx'
    obtain ⟨source, hSource, hEntry⟩ := settledEntry_of_mem_results h hs hRun hx hDeep
    obtain ⟨source', hSource', hEntry'⟩ := settledEntry_of_mem_results h' hs' hRun' hx' hDeep'
    rw [hSame.get?, hSource] at hSource'
    cases hSource'
    rw [hSame.settle_eq, hEntry] at hEntry'
    cases hEntry'
    rfl
  have hCoordinates : c ∈ results.map (·.1) ↔ c ∈ results'.map (·.1) := by
    rw [coordinates_of_evaluateGrid hs hRun, coordinates_of_evaluateGrid hs' hRun',
      Grid.mem_coordinates_iff, Grid.mem_coordinates_iff, hSame.get?]
  constructor
  · intro hx
    obtain ⟨⟨_, x'⟩, hx', rfl⟩ :=
      List.mem_map.mp (hCoordinates.mp (List.mem_map_of_mem hx))
    rwa [hUnique cell x' hx hx']
  · intro hx'
    obtain ⟨⟨_, x⟩, hx, rfl⟩ :=
      List.mem_map.mp (hCoordinates.mpr (List.mem_map_of_mem hx'))
    rwa [← hUnique x cell hx hx']

theorem plainPass_isOk_iff {entries : List (Coordinate × Cell)} :
    (∃ results, plainPass ctx entries = .ok results) ↔
      ∀ entry ∈ entries, ∃ x, settledEntry entry (Recursion.settle ctx [] entry.1) = .ok x := by
  induction entries with
  | nil => simp [plainPass]
  | cons entry rest ih =>
    rw [List.forall_mem_cons, ← ih, plainPass]
    cases settledEntry entry (Recursion.settle ctx [] entry.1) <;>
      cases plainPass ctx rest <;> simp [bind, Except.bind, pure, Except.pure]

/-- With memory on, the cells that a request depends on are settled first, deepest cells first, and
kept. Every request ends as it does by recursion without memory, and so does every cell of a pass;
nesting beyond the limit is left aside. -/
theorem memory_agrees_with_recursion (hFunctions : ctx.functions.ReportsNoCycle)
    (hReadable : ctx.IsReadable) (hNumeric : (ctx.withMemory false).HasNoNumericFault)
    (r : Request) :
    (¬ r.IsDeep (ctx.withMemory true) {} → ¬ r.IsDeep (ctx.withMemory false) {} →
      (r.run (ctx.withMemory true)).outcome {} = (r.run (ctx.withMemory false)).outcome {}) ∧
    PassesAgree (ctx.withMemory true) {} (ctx.withMemory false) {} := by
  have hOff : (ctx.withMemory false).IsOrderly :=
    isOrderly_of_evaluateCell hReadable hFunctions hNumeric
  have hSame : Recursion.SameCells (ctx.withMemory false) (ctx.withMemory true) :=
    ⟨fun _ => rfl, rfl, rfl⟩
  have hOn := isOrderly_of_sameCells hSame hOff
  refine ⟨fun hDeepOn hDeepOff => ?_, ?_⟩
  · rw [Request.outcome_eq hOn (Session.faithful_empty _) r hDeepOn,
      Request.outcome_eq hOff (Session.faithful_empty _) r hDeepOff, plainAnswer_eq hSame rfl]
  · have hBack : Recursion.SameCells (ctx.withMemory true) (ctx.withMemory false) :=
      ⟨fun _ => rfl, rfl, rfl⟩
    exact passesAgree hOn hBack (Session.faithful_empty _) (Session.faithful_empty _)

/-- A sheet with a cell on a cycle, a cell above it and a cell apart. -/
def loopSheet : EvaluationContext where
  grid := ⟨[(⟨0, 0⟩, { formula := some "=A1" }), (⟨0, 1⟩, { formula := some "=SUM(C1,A1)" }),
    (⟨0, 2⟩, { value := .int 7 })], by decide⟩
  functions := Builtin.registry

theorem loopSheet_cases {c : Coordinate} {text : String}
    (h : formulaOf (loopSheet.grid.get? c) = some text) :
    c = ⟨0, 0⟩ ∧ text = "=A1" ∨ c = ⟨0, 1⟩ ∧ text = "=SUM(C1,A1)" := by
  obtain ⟨cell, hEntry, hFormula⟩ := exists_entry_of_formula h
  simp only [loopSheet, List.mem_cons, Prod.mk.injEq, List.not_mem_nil, or_false] at hEntry
  rcases hEntry with ⟨rfl, rfl⟩ | ⟨rfl, rfl⟩ | ⟨rfl, rfl⟩
  · cases hFormula
    exact .inl ⟨rfl, rfl⟩
  · cases hFormula
    exact .inr ⟨rfl, rfl⟩
  · cases hFormula

theorem loopSheet_isOrderly : loopSheet.IsOrderly where
  readable := by
    apply isReadable_of_entries
    intro entry hEntry text hText f hParse
    simp only [loopSheet, List.mem_cons, List.not_mem_nil, or_false] at hEntry
    rcases hEntry with rfl | rfl | rfl
    · cases hText
      have hTree : Formula.parse "=A1" = .ok (.cell "A1") := by cbv
      rw [hTree] at hParse
      cases hParse
      decide
    · cases hText
      have hTree : Formula.parse "=SUM(C1,A1)" =
          .ok (.call "SUM" [.cell "C1", .cell "A1"]) := by cbv
      rw [hTree] at hParse
      cases hParse
      decide
    · cases hText
  functions := Builtin.registry_reportsNoCycle
  settle c fault hNumeric := by
    cases hText : formulaOf (loopSheet.grid.get? c) with
    | none =>
      rw [Recursion.settle_literal (by simp) hText] at hNumeric
      cases hNumeric
    | some text =>
      have hCycle : Recursion.settle loopSheet [] c =
          .error (.formula (.circular [⟨0, 0⟩, ⟨0, 0⟩])) := by
        rcases loopSheet_cases hText with ⟨rfl, -⟩ | ⟨rfl, -⟩
        · exact Recursion.settle_of_settleWithin (d := 3) (by cbv) (by simp)
        · exact Recursion.settle_of_settleWithin (d := 3) (by cbv) (by simp)
      rw [hCycle] at hNumeric
      cases hNumeric

theorem memory_agrees_on_loopSheet :
    loopSheet.functions.ReportsNoCycle ∧ loopSheet.IsReadable ∧
      (loopSheet.withMemory false).HasNoNumericFault ∧
      ((Request.cell ⟨0, 1⟩).run (loopSheet.withMemory true)).outcome {} =
        ((Request.cell ⟨0, 1⟩).run (loopSheet.withMemory false)).outcome {} := by
  have h := loopSheet_isOrderly
  have hOff : (loopSheet.withMemory false).HasNoNumericFault :=
    hasNoNumericFault_of_isOrderly (isOrderly_of_sameCells (withMemory_sameCells _ _) h)
  refine ⟨h.functions, h.readable, hOff,
    (memory_agrees_with_recursion h.functions h.readable hOff (.cell ⟨0, 1⟩)).1 ?_ ?_⟩
  · exact not_isDeep_of_circular (p := [⟨0, 0⟩, ⟨0, 0⟩]) (by cbv)
  · exact not_isDeep_of_circular (p := [⟨0, 0⟩, ⟨0, 0⟩]) (by cbv)

/-- A cell that calls a function which reports a cycle of its own, and a cell whose formula fails
before it comes to the first one. -/
def falseAlarmSheet : EvaluationContext where
  grid := ⟨[(⟨0, 0⟩, { formula := some "=BAD()" }), (⟨0, 1⟩, { formula := some "=FAIL()+A1" })],
    by decide⟩
  functions := ⟨[("bad", fun _ => .error (.formula (.circular [⟨0, 0⟩, ⟨0, 0⟩]))),
    ("fail", fun _ => .error (.raised "worn"))]⟩

theorem falseAlarmSheet_cases {c : Coordinate} {text : String}
    (h : formulaOf (falseAlarmSheet.grid.get? c) = some text) :
    c = ⟨0, 0⟩ ∧ text = "=BAD()" ∨ c = ⟨0, 1⟩ ∧ text = "=FAIL()+A1" := by
  obtain ⟨cell, hEntry, hFormula⟩ := exists_entry_of_formula h
  simp only [falseAlarmSheet, List.mem_cons, Prod.mk.injEq, List.not_mem_nil, or_false] at hEntry
  rcases hEntry with ⟨rfl, rfl⟩ | ⟨rfl, rfl⟩
  · cases hFormula
    exact .inl ⟨rfl, rfl⟩
  · cases hFormula
    exact .inr ⟨rfl, rfl⟩

theorem parse_alarm : Formula.parse "=BAD()" = .ok (.call "BAD" []) := by cbv

theorem parse_aboveAlarm :
    Formula.parse "=FAIL()+A1" = .ok (.binary .add (.call "FAIL" []) (.cell "A1")) := by cbv

theorem falseAlarmSheet_isReadable : falseAlarmSheet.IsReadable := by
  intro c text f hText hParse
  rcases falseAlarmSheet_cases hText with ⟨-, rfl⟩ | ⟨-, rfl⟩
  · rw [parse_alarm] at hParse
    cases hParse
    exact nofun
  · rw [parse_aboveAlarm] at hParse
    cases hParse
    intro a ha
    have hShort : ∀ a ∈ ["A1"], a.toList.length ≤ Decimal.digitLimit := by decide
    exact Coordinate.rowIsReadable_of_length_le (hShort a ha)

/-- What the second cell settles to. -/
def wornCell : Cell := { error := some "FAIL: worn", formula := some "=FAIL()+A1" }

theorem falseAlarmSheet_hasNoNumericFault (memoize : Bool) :
    (falseAlarmSheet.withMemory memoize).HasNoNumericFault := by
  intro c fault hNumeric
  cases hText : formulaOf (falseAlarmSheet.grid.get? c) with
  | none =>
    have hLiteral : formulaOf ((falseAlarmSheet.withMemory memoize).roomy.grid.get? c) = none :=
      hText
    rw [evaluateCell_literal (Session.faithful_empty _) hLiteral] at hNumeric
    cases hNumeric
  | some text =>
    -- No ending of the two cells, with memory or without, is a numeric fault.
    rcases falseAlarmSheet_cases hText with ⟨rfl, -⟩ | ⟨rfl, -⟩ <;> cases memoize
    all_goals
      cbv at hNumeric
      cases hNumeric

/-- With memory on, a circular reference that a function reports ends the request while the cells
are prepared. With memory off the request does not come to that function. -/
theorem memory_shows_on_falseAlarmSheet :
    falseAlarmSheet.IsReadable ∧ (falseAlarmSheet.withMemory false).HasNoNumericFault ∧
      ¬ (Request.cell ⟨0, 1⟩).IsDeep (falseAlarmSheet.withMemory true) {} ∧
      ¬ (Request.cell ⟨0, 1⟩).IsDeep (falseAlarmSheet.withMemory false) {} ∧
      ((Request.cell ⟨0, 1⟩).run (falseAlarmSheet.withMemory true)).outcome {} ≠
        ((Request.cell ⟨0, 1⟩).run (falseAlarmSheet.withMemory false)).outcome {} := by
  have hOn : ((Request.cell ⟨0, 1⟩).run (falseAlarmSheet.withMemory true)).outcome {} =
      .error (.formula (.circular [⟨0, 0⟩, ⟨0, 0⟩])) := by cbv
  have hOff : ((Request.cell ⟨0, 1⟩).run (falseAlarmSheet.withMemory false)).outcome {} =
      .ok (.cell (some wornCell)) := by cbv
  refine ⟨falseAlarmSheet_isReadable, falseAlarmSheet_hasNoNumericFault false,
    not_isDeep_of_circular hOn, not_isDeep_of_ok hOff, ?_⟩
  rw [hOn, hOff]
  rintro ⟨⟩

/-- What one session was asked before makes no difference to a request, however the earlier requests
ended, and the order of the grid makes none to a pass. -/
theorem outcome_independent_of_history (hFunctions : ctx.functions.ReportsNoCycle)
    (hReadable : ctx.IsReadable) (hNumeric : ctx.HasNoNumericFault) (before : List Request) :
    (∀ r : Request, ¬ r.IsDeep ctx (after ctx before) → ¬ r.IsDeep ctx {} →
      (r.run ctx).outcome (after ctx before) = (r.run ctx).outcome {}) ∧
    ∀ g : Grid, g.entries.Perm ctx.grid.entries →
      PassesAgree ctx (after ctx before) (ctx.withGrid g) {} ∧
      (¬ Request.pass.IsDeep ctx (after ctx before) →
        ¬ Request.pass.IsDeep (ctx.withGrid g) {} →
        ((∃ results, (evaluateGrid ctx).outcome (after ctx before) = .ok results) ↔
          ∃ results, (evaluateGrid (ctx.withGrid g)).outcome {} = .ok results)) := by
  have h : ctx.IsOrderly := isOrderly_of_evaluateCell hReadable hFunctions hNumeric
  have hAfter := after_faithful ctx before
  refine ⟨fun r hDeep hDeepAlone => ?_, fun g hPerm => ?_⟩
  · rw [Request.outcome_eq h hAfter r hDeep,
      Request.outcome_eq h (Session.faithful_empty ctx) r hDeepAlone]
  · have hSame : Recursion.SameCells ctx (ctx.withGrid g) :=
      ⟨Grid.get?_eq_of_perm hPerm, rfl, rfl⟩
    have hOrder := isOrderly_of_sameCells hSame h
    refine ⟨passesAgree h hSame hAfter (Session.faithful_empty _), fun hDeep hDeepOrder => ?_⟩
    rw [evaluateGrid_outcome h hAfter hDeep,
      evaluateGrid_outcome hOrder (Session.faithful_empty _) hDeepOrder, plainPass_isOk_iff,
      plainPass_isOk_iff]
    simp only [hSame.settle_eq]
    exact ⟨fun hAll e he => hAll e (hPerm.subset he),
      fun hAll e he => hAll e (hPerm.symm.subset he)⟩

theorem history_irrelevant_on_loopSheet :
    loopSheet.functions.ReportsNoCycle ∧ loopSheet.IsReadable ∧ loopSheet.HasNoNumericFault ∧
      ((Request.cell ⟨0, 1⟩).run loopSheet).outcome
          (after loopSheet [.resolve ⟨0, 0⟩, .cell ⟨0, 2⟩]) =
        ((Request.cell ⟨0, 1⟩).run loopSheet).outcome {} ∧
      PassesAgree loopSheet (after loopSheet [.resolve ⟨0, 0⟩, .cell ⟨0, 2⟩])
        (loopSheet.withGrid ⟨loopSheet.grid.entries.reverse, by decide⟩) {} := by
  have h := loopSheet_isOrderly
  have hNumeric := hasNoNumericFault_of_isOrderly h
  have hHistory := outcome_independent_of_history h.functions h.readable hNumeric
    [.resolve ⟨0, 0⟩, .cell ⟨0, 2⟩]
  refine ⟨h.functions, h.readable, hNumeric, hHistory.1 (.cell ⟨0, 1⟩) ?_ ?_,
    (hHistory.2 ⟨loopSheet.grid.entries.reverse, by decide⟩ (List.reverse_perm _)).1⟩
  · exact not_isDeep_of_circular (p := [⟨0, 0⟩, ⟨0, 0⟩]) (by cbv)
  · exact not_isDeep_of_circular (p := [⟨0, 0⟩, ⟨0, 0⟩]) (by cbv)

/-- Alone the request ends in the circular reference that a function reports. After the cell was
resolved it is answered from the memory. -/
theorem history_shows_on_falseAlarmSheet :
    falseAlarmSheet.IsReadable ∧ falseAlarmSheet.HasNoNumericFault ∧
      ¬ (Request.cell ⟨0, 1⟩).IsDeep falseAlarmSheet (after falseAlarmSheet [.resolve ⟨0, 1⟩]) ∧
      ¬ (Request.cell ⟨0, 1⟩).IsDeep falseAlarmSheet {} ∧
      ((Request.cell ⟨0, 1⟩).run falseAlarmSheet).outcome
          (after falseAlarmSheet [.resolve ⟨0, 1⟩]) ≠
        ((Request.cell ⟨0, 1⟩).run falseAlarmSheet).outcome {} := by
  have hAlone : ((Request.cell ⟨0, 1⟩).run falseAlarmSheet).outcome {} =
      .error (.formula (.circular [⟨0, 0⟩, ⟨0, 0⟩])) := by cbv
  have hLater : ((Request.cell ⟨0, 1⟩).run falseAlarmSheet).outcome
      (after falseAlarmSheet [.resolve ⟨0, 1⟩]) = .ok (.cell (some wornCell)) := by cbv
  refine ⟨falseAlarmSheet_isReadable, falseAlarmSheet_hasNoNumericFault true,
    not_isDeep_of_ok hLater, not_isDeep_of_circular hAlone, ?_⟩
  rw [hAlone, hLater]
  rintro ⟨⟩

end Resolver
end Spreadsheet
