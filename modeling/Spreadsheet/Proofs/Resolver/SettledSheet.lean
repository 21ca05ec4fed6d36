import Spreadsheet.Proofs.Resolver.Clean
import Spreadsheet.Proofs.Resolver.Orderly

/-!
# A pass settles the sheet

After a whole pass every formula cell holds what its formula gives on the results of the others. A
cell that got too deep in the pass may settle later, when more of the sheet is in memory; then it
settles to an error as well, and formulas over it fail with one and the same message.
-/

set_option autoImplicit false

namespace Spreadsheet

open Evaluation Resolver

/-! ## Cells that formulas cannot tell apart -/

/-- What a formula sees of a settled cell: its value, unless it has an error. -/
def reading (cell : Option Cell) : Option Value :=
  match errorOf cell with
  | some _ => none
  | none => some ((cell.map (·.value)).getD .null)

namespace Formula

variable {address : String} {cell : Option Cell} {State : Type}

theorem valueOf_of_reading_some {v : Value} (h : reading cell = some v) :
    (valueOf address cell : Evaluation State Value) = pure v := by
  cases cell with
  | none =>
    cases h
    rfl
  | some x =>
    cases hError : x.error with
    | none =>
      have hValue : x.value = v := by simpa [reading, errorOf, hError] using h
      simp only [valueOf, hError, hValue]
    | some cause => simp [reading, errorOf, hError] at h

theorem valueOf_of_reading_none (h : reading cell = none) :
    ∃ cause, (valueOf address cell : Evaluation State Value) =
      throw (.formula (.dependentCell address cause)) := by
  cases cell with
  | none => cases h
  | some x =>
    cases hError : x.error with
    | none => simp [reading, errorOf, hError] at h
    | some cause =>
      refine ⟨cause, ?_⟩
      simp only [valueOf, hError]
      rfl

end Formula

namespace Recursion

variable {ctx : EvaluationContext} {f : Formula} {A : Coordinate → Except Failure (Option Cell)}
  {B : Coordinate → Option Cell}

/-- The failure is about a faulty cell at the address. -/
def Blames (address : String) (e : Failure) : Prop :=
  ∃ cause, e = .formula (.dependentCell address cause)

/-- Cells that read alike are faulty together, though for causes of their own. -/
theorem valueOf_follows_of_reading {slips aside : Failure → Prop} {address : String}
    {x y : Option Cell} (hSame : reading x = reading y)
    (hBlame : ∀ e, Blames address e → aside e ∨ ∀ e', Blames address e' → slips e') :
    Follows (fun _ => True) aside slips
      ((Formula.valueOf address x : Evaluation Unit Value).outcome ())
      (Formula.valueOf address y : Evaluation Unit Value) := by
  cases hCell : reading x with
  | some v =>
    rw [hCell] at hSame
    rw [Formula.valueOf_of_reading_some hCell, Formula.valueOf_of_reading_some hSame.symm]
    exact follows_pure v
  | none =>
    rw [hCell] at hSame
    obtain ⟨cause, hCause⟩ := @Formula.valueOf_of_reading_none address x Unit hCell
    obtain ⟨cause', hCause'⟩ := @Formula.valueOf_of_reading_none address y Unit hSame.symm
    rw [hCause, hCause']
    rcases hBlame _ ⟨cause, rfl⟩ with hAside | hSlips
    · exact follows_of_aside hAside _
    · exact fun _ s hs => ⟨s, hs, .inr ⟨_, hSlips _ ⟨cause', rfl⟩, rfl⟩⟩

/-- Faults about cells at other addresses than the one of the result cannot be the result. -/
theorem agree_of_reading
    (hError : ∀ z, f.Asks ctx.rangeLimit z → ∀ e, A z = .error e → ¬ Recordable e)
    (hReading : ∀ z, f.Asks ctx.rangeLimit z →
      ∀ cell, A z = .ok cell → reading cell = reading (B z))
    (r : Except Failure Value) :
    Formula.Agree (fun _ => True)
      (fun e => ¬ Recordable e ∨ ∃ address,
        Blames address e ∧ ¬ ∃ e', r = .error e' ∧ Blames address e')
      (fun e => ∃ address, Blames address e ∧ ∃ e', r = .error e' ∧ Blames address e')
      (f.Asks ctx.rangeLimit) (surroundings ctx A) (surroundings ctx fun z => .ok (B z)) := by
  refine ⟨rfl, rfl, fun _ _ => follows_pure (), fun z hz address => ?_⟩
  simp only [surroundings, lift_ok, pure_bind]
  cases hA : A z with
  | error e => exact follows_of_aside (.inl (hError z hz e hA)) _
  | ok cell =>
    simp only [lift_ok, pure_bind]
    refine valueOf_follows_of_reading (hReading z hz cell hA) fun e he => ?_
    by_cases hHere : ∃ e', r = .error e' ∧ Blames address e'
    · exact .inr fun e' he' => ⟨address, he', hHere⟩
    · exact .inl (.inr ⟨address, he, hHere⟩)

/-- A formula that fails at most recordably comes to the same over cells that read alike, up to the
cause that it names for a faulty cell. -/
theorem value_of_reading (hRecordable : ∀ e, value ctx A f = .error e → Recordable e)
    (hError : ∀ z, f.Asks ctx.rangeLimit z → ∀ e, A z = .error e → ¬ Recordable e)
    (hReading : ∀ z, f.Asks ctx.rangeLimit z →
      ∀ cell, A z = .ok cell → reading cell = reading (B z)) :
    value ctx (fun z => .ok (B z)) f = value ctx A f ∨
      ∃ address e e', value ctx A f = .error e ∧ Blames address e ∧
        value ctx (fun z => .ok (B z)) f = .error e' ∧ Blames address e' := by
  have hAgree := agree_of_reading hError hReading (value ctx A f)
  have hNotAside : ∀ e, value ctx A f = .error e → ¬ (¬ Recordable e ∨ ∃ address,
      Blames address e ∧ ¬ ∃ e', value ctx A f = .error e' ∧ Blames address e') := by
    rintro e he (hNot | ⟨address, hBlame, hNone⟩)
    · exact hNot (hRecordable e he)
    · exact hNone ⟨e, he, hBlame⟩
  obtain ⟨_, -, hRun | ⟨e', ⟨address, hBlame, e, hValue, hBlames⟩, hRun⟩⟩ :=
    Formula.evaluate_follows f hAgree hNotAside () trivial
  · exact .inl (outcome_of_ended hRun)
  · exact .inr ⟨address, e, e', hValue, hBlames, outcome_of_error hRun, hBlame⟩

end Recursion

namespace Resolver

variable {ctx : EvaluationContext} {s t : Session} {c z : Coordinate} {cell : Cell}
  {results : List (Coordinate × Cell)} {text : String}

/-! ## Grids without formulas -/

/-- Over a grid without formulas a formula has the value of plain recursion. -/
theorem evaluate_outcome_of_literals (hLiterals : ∀ c, formulaOf (ctx.grid.get? c) = none)
    {f : Formula} {roots : List Coordinate}
    (hReferences : f.references ctx.rangeLimit = .ok roots) :
    (evaluate ctx f).outcome {} = Recursion.value ctx (fun z => .ok (ctx.grid.get? z)) f := by
  have hSettle : Recursion.settle ctx [] = fun z => .ok (ctx.grid.get? z) :=
    funext fun z => Recursion.settle_literal (by simp) (hLiterals z)
  rw [← hSettle]
  cases evaluate_ending hReferences (Session.faithful_empty ctx) with
  | settled t _ hRun => exact outcome_of_ended hRun
  | deep _ _ _ hRoom _ _ =>
    have hNone : Recursion.room ctx [] = 0 := by
      simp [Recursion.room, Recursion.formulaCoordinates, hLiterals]
    omega
  | refused _ _ _ y _ _ _ _ hRefused _ =>
    exact absurd hRefused (not_refused_of_literal (hLiterals y))

/-! ## The results of a pass -/

theorem settledEntry_of_ok {source : Cell} {settled : Option Cell}
    (h : settledEntry (c, source) (.ok settled) = .ok (some (c, cell))) : settled = some cell := by
  cases settled with
  | none => cases h
  | some x =>
    cases h
    rfl

theorem settledEntry_of_error {source : Cell} {e : Failure}
    (h : settledEntry (c, source) (.error e) = .ok (some (c, cell))) :
    ∃ fault, e = .formula fault ∧ endsCellOnly fault = true ∧ cell = failedCell source fault := by
  cases e with
  | formula fault =>
    simp only [settledEntry] at h
    cases hEnds : endsCellOnly fault with
    | true =>
      simp only [hEnds, if_true] at h
      cases h
      exact ⟨fault, rfl, hEnds, rfl⟩
    | false =>
      simp only [hEnds, Bool.false_eq_true, if_false] at h
      cases h
  | numeric fault => cases h
  | tooDeep => cases h

/-- A cell that settles within the depth that is there reads like its result in a pass. -/
theorem reading_of_result (hs : s.Faithful ctx) (hRun : evaluateGrid ctx s = .ok results t)
    (hMem : (c, cell) ∈ results) {settled : Option Cell}
    (hSettled : Recursion.settleWithin ctx (depthOf ctx) [] c = .ok settled) :
    reading (some cell) = reading settled := by
  obtain ⟨source, u, hSource, hVisit, hEntry⟩ := mem_of_evaluateEntries hRun hMem
  have hu : u.Faithful ctx := visits_faithful hs hVisit
  cases hCell : evaluateCell ctx c u with
  | ok answer v =>
    have hSame := settleWithin_of_evaluateCell hu hCell
    rw [hSettled] at hSame
    cases hSame
    rw [outcome_of_ok hCell] at hEntry
    rw [settledEntry_of_ok hEntry]
  | error e v =>
    rw [outcome_of_error hCell] at hEntry
    obtain ⟨fault, -, -, rfl⟩ := settledEntry_of_error hEntry
    cases hError : errorOf settled with
    | some cause =>
      rw [reading, reading, hError]
      rfl
    | none =>
      obtain ⟨_, hAnswer, -⟩ := evaluateCell_of_clean hu ⟨settled, hSettled, hError⟩
      rw [outcome_of_error hCell] at hAnswer
      cases hAnswer

/-- The results of a pass, without their formulas. -/
def settledGrid (results : List (Coordinate × Cell)) (h : (results.map (·.1)).Nodup) : Grid where
  entries := results.map fun r => (r.1, { r.2 with formula := none })
  nodup := by rwa [List.map_map]

theorem settledGrid_literals (h : (results.map (·.1)).Nodup) (c : Coordinate) :
    formulaOf ((settledGrid results h).get? c) = none := by
  cases hCell : (settledGrid results h).get? c with
  | none => rfl
  | some cell =>
    obtain ⟨r, -, hr⟩ := List.mem_map.mp (Grid.get?_eq_some_iff.mp hCell)
    cases hr
    rfl

theorem reading_settledGrid (h : (results.map (·.1)).Nodup) (hMem : (c, cell) ∈ results) :
    reading ((settledGrid results h).get? c) = reading (some cell) := by
  have hCell : (settledGrid results h).get? c = some { cell with formula := none } :=
    Grid.get?_eq_some_iff.mpr (List.mem_map_of_mem hMem)
  rw [hCell]
  rfl

theorem settledGrid_get?_none (h : (results.map (·.1)).Nodup) (hc : c ∉ results.map (·.1)) :
    (settledGrid results h).get? c = none := by
  cases hCell : (settledGrid results h).get? c with
  | none => rfl
  | some cell =>
    obtain ⟨r, hr, hSame⟩ := List.mem_map.mp (Grid.get?_eq_some_iff.mp hCell)
    cases hSame
    exact absurd (List.mem_map_of_mem hr) hc

/-- The settled grid reads like plain recursion wherever that settles. -/
theorem reading_of_settled (hs : s.Faithful ctx) (hRun : evaluateGrid ctx s = .ok results t)
    (h : (results.map (·.1)).Nodup) {settled : Option Cell}
    (hSettled : Recursion.settleWithin ctx (depthOf ctx) [] c = .ok settled) :
    reading ((settledGrid results h).get? c) = reading settled := by
  by_cases hc : c ∈ results.map (·.1)
  · obtain ⟨⟨_, cell⟩, hMem, rfl⟩ := List.mem_map.mp hc
    rw [reading_settledGrid h hMem, reading_of_result hs hRun hMem hSettled]
  · rw [settledGrid_get?_none h hc]
    rw [coordinates_of_evaluateGrid hs hRun, Grid.mem_coordinates_iff] at hc
    have hNone : ctx.grid.get? c = none := by
      cases hCell : ctx.grid.get? c with
      | none => rfl
      | some cell => exact absurd ⟨cell, hCell⟩ hc
    rw [Recursion.settleWithin_literal _ (by simp) (by rw [hNone]; rfl), hNone] at hSettled
    cases hSettled
    rfl

end Resolver

def Failure.IsCircular (e : Failure) : Prop := ∃ path, e = .formula (.circular path)

/-- A cell holds the result of a formula: its value, or the message of its fault. -/
def Cell.Holds (cell : Cell) : Except Failure Value → Prop
  | .ok v => cell.error = none ∧ cell.value = v
  | .error e => ∃ fault, e = .formula fault ∧ cell.error = some fault.message ∧ cell.value = .null

namespace Resolver

variable {ctx : EvaluationContext} {s t : Session} {c z : Coordinate} {cell : Cell}
  {results : List (Coordinate × Cell)} {text : String}

theorem holds_of_settledBy {r : Except Failure Value}
    (h : Recursion.settledBy c text r = .ok (some cell)) :
    cell.Holds r ∧ cell.formula = some text := by
  cases r with
  | ok v =>
    cases h
    exact ⟨⟨rfl, rfl⟩, rfl⟩
  | error e =>
    obtain ⟨fault, rfl, hCircular⟩ := Recursion.recordable_of_settledBy h rfl
    simp only [Recursion.settledBy, settledCell, hCircular, Bool.false_eq_true, if_false] at h
    cases hAddress : c.toAddress with
    | error e => simp [hAddress] at h
    | ok address =>
      simp only [hAddress, Except.ok.injEq, Option.some.injEq] at h
      subst h
      exact ⟨⟨fault, rfl, rfl, rfl⟩, rfl⟩

/-- The message of a fault about a faulty cell names the cell alone. -/
theorem holds_of_blames {address : String} {e e' : Failure} (h : cell.Holds (.error e))
    (he : Recursion.Blames address e) (he' : Recursion.Blames address e') :
    cell.Holds (.error e') := by
  obtain ⟨cause, rfl⟩ := he
  obtain ⟨cause', rfl⟩ := he'
  obtain ⟨_, ⟨⟩, hError, hValue⟩ := h
  exact ⟨_, rfl, hError, hValue⟩

/-- A formula cell that settles holds what its formula gives on the results of the pass. -/
theorem holds_of_settled (hReadable : ctx.IsReadable) (hs : s.Faithful ctx)
    (hRun : evaluateGrid ctx s = .ok results t) (h : (results.map (·.1)).Nodup)
    (hText : formulaOf (ctx.grid.get? c) = some text)
    (hSettled : Recursion.settleWithin ctx (depthOf ctx) [] c = .ok (some cell)) :
    cell.Holds ((evaluateText (ctx.withGrid (settledGrid results h)) text).outcome {}) := by
  obtain ⟨e, hDepth, hSettledBy⟩ := Recursion.exists_settledBy hText hSettled
  have hHolds := (holds_of_settledBy hSettledBy).1
  rw [evaluateText, treeOf_none]
  cases hTree : Recursion.tree text with
  | error failure =>
    simp only [Recursion.textValue, hTree] at hHolds
    exact hHolds
  | ok f =>
    simp only [Recursion.textValue, hTree] at hHolds hSettledBy
    rw [lift_ok, pure_bind]
    obtain ⟨roots, hReferences⟩ : ∃ roots, f.references ctx.rangeLimit = .ok roots :=
      (hReadable c text f hText (Recursion.tree_eq_ok.mp hTree)).references_ok
    have hPlain : (evaluate (ctx.withGrid (settledGrid results h)) f).outcome {} =
        Recursion.value ctx (fun z => .ok ((settledGrid results h).get? z)) f :=
      @evaluate_outcome_of_literals (ctx.withGrid (settledGrid results h)) (settledGrid_literals h)
        f roots hReferences
    rw [hPlain]
    have hReading : ∀ z, f.Asks ctx.rangeLimit z → ∀ settled,
        Recursion.settleWithin ctx e [c] z = .ok settled →
          reading settled = reading ((settledGrid results h).get? z) := by
      intro z _ settled hz
      refine (reading_of_settled hs hRun h ?_).symm
      have hAlone := Recursion.settlesWithin_of_waiting hz
      rw [hDepth, Recursion.settleWithin_mono e.le_succ (by simp [hAlone]), hAlone]
    rcases Recursion.value_of_reading
      (fun e he => Recursion.recordable_of_settledBy hSettledBy he)
      (fun z hz e he => Recursion.settleWithin_error_of_isAddressable hz.isAddressable he)
      hReading with hSame | ⟨address, e, e', hValue, hBlames, hValue', hBlames'⟩
    · rwa [hSame]
    · rw [hValue] at hHolds
      rw [hValue']
      exact holds_of_blames hHolds hBlames hBlames'

theorem value_null_or_error_none {r : Except Failure Value} (h : cell.Holds r) :
    cell.value = .null ∨ cell.error = none := by
  cases r with
  | ok v => exact .inr h.1
  | error e =>
    obtain ⟨_, -, -, hValue⟩ := h
    exact .inl hValue

theorem isCircular_or_isDepth_of_endsCellOnly {fault : FormulaFault}
    (h : endsCellOnly fault = true) :
    (Failure.formula fault).IsCircular ∨ (Failure.formula fault).IsDepth := by
  cases fault with
  | circular path => exact .inl ⟨path, rfl⟩
  | nestedTooDeeply address => exact .inr trivial
  | _ => cases h

/-- What a pass from a session records for a cell without a formula is the cell itself. -/
theorem eq_of_literal_entry {source : Cell} (hs : s.Faithful ctx)
    (hGrid : ctx.grid.get? c = some source) (hFormula : source.formula = none)
    (hEntry : settledEntry (c, source) ((evaluateCell ctx c).outcome s) = .ok (some (c, cell))) :
    cell = source := by
  have hText : formulaOf (ctx.grid.get? c) = none := by rw [hGrid]; exact hFormula
  rw [evaluateCell_literal hs hText, hGrid] at hEntry
  cases settledEntry_of_ok hEntry
  rfl

/-- What a pass records for a formula cell keeps the formula, and has settled unless the evaluation
met a cycle or got too deep. -/
theorem settled_of_formula_entry {source : Cell} (hs : s.Faithful ctx)
    (hGrid : ctx.grid.get? c = some source) (hFormula : source.formula = some text)
    (hEntry : settledEntry (c, source) ((evaluateCell ctx c).outcome s) = .ok (some (c, cell))) :
    cell.formula = some text ∧ (cell.value = .null ∨ cell.error = none) ∧
      (Recursion.settleWithin ctx (depthOf ctx) [] c = .ok (some cell) ∨
        ∃ e, (evaluateCell ctx c).outcome s = .error e ∧ (e.IsCircular ∨ e.IsDepth)) := by
  have hText : formulaOf (ctx.grid.get? c) = some text := by rw [hGrid]; exact hFormula
  cases hCell : evaluateCell ctx c s with
  | ok answer t =>
    rw [outcome_of_ok hCell] at hEntry
    obtain rfl := settledEntry_of_ok hEntry
    have hSettled := settleWithin_of_evaluateCell hs hCell
    obtain ⟨_, -, hSettledBy⟩ := Recursion.exists_settledBy hText hSettled
    obtain ⟨hHolds, hKept⟩ := holds_of_settledBy hSettledBy
    exact ⟨hKept, value_null_or_error_none hHolds, .inl hSettled⟩
  | error e t =>
    rw [outcome_of_error hCell] at hEntry
    obtain ⟨fault, rfl, hEnds, rfl⟩ := settledEntry_of_error hEntry
    exact ⟨hFormula, .inl rfl,
      .inr ⟨_, outcome_of_error hCell, isCircular_or_isDepth_of_endsCellOnly hEnds⟩⟩

/-- A pass that returns settles the sheet: it keeps the coordinates in their order and the cells
without a formula, and every formula cell holds what its formula gives on the sheet of the results,
unless its own evaluation meets a cycle or gets too deep. -/
theorem evaluateGrid_settles (hReadable : ctx.IsReadable) (before : List Request)
    (hRun : evaluateGrid ctx (after ctx before) = .ok results t) :
    results.map (·.1) = ctx.grid.coordinates ∧
    ∃ settled : Grid, settled.entries = results.map (fun r => (r.1, { r.2 with formula := none })) ∧
      ∀ c source cell, (c, source) ∈ ctx.grid.entries → (c, cell) ∈ results →
        (source.formula = none → cell = source) ∧
        ∀ text, source.formula = some text →
          cell.formula = some text ∧ (cell.value = .null ∨ cell.error = none) ∧
          ((∀ e, EndsInPass ctx (after ctx before) c (.error e) → ¬ e.IsCircular ∧ ¬ e.IsDepth) →
            cell.Holds ((evaluateText (ctx.withGrid settled) text).outcome {})) := by
  have hs := after_faithful ctx before
  have hCoordinates := coordinates_of_evaluateGrid hs hRun
  have hNodup : (results.map (·.1)).Nodup := by
    rw [hCoordinates]
    exact ctx.grid.nodup
  refine ⟨hCoordinates, settledGrid results hNodup, rfl, fun c source cell hSource hMem => ?_⟩
  obtain ⟨source', u, hSource', hVisit, hEntry⟩ := mem_of_evaluateEntries hRun hMem
  have hu : u.Faithful ctx := visits_faithful hs hVisit
  obtain rfl := eq_of_mem_of_nodup ctx.grid.nodup hSource hSource'
  have hGrid : ctx.grid.get? c = some source := Grid.get?_eq_some_iff.mpr hSource
  constructor
  · exact fun hFormula => eq_of_literal_entry hu hGrid hFormula hEntry
  · intro text hFormula
    have hText : formulaOf (ctx.grid.get? c) = some text := by rw [hGrid]; exact hFormula
    obtain ⟨hKept, hOne, hSettled⟩ := settled_of_formula_entry hu hGrid hFormula hEntry
    refine ⟨hKept, hOne, fun hOther => ?_⟩
    rcases hSettled with hSettled | ⟨e, hEnd, hUnsettled⟩
    · exact holds_of_settled hReadable hs hRun hNodup hText hSettled
    · obtain ⟨hNotCircular, hNotDeep⟩ := hOther e ⟨u, hVisit, hEnd⟩
      exact (hUnsettled.elim hNotCircular hNotDeep).elim

theorem evaluateGrid_settles_tripleSheet :
    tripleSheet.IsReadable ∧
    ∃ results t, evaluateGrid tripleSheet (after tripleSheet []) = .ok results t ∧
      results.map (·.1) = tripleSheet.grid.coordinates ∧
      ∃ settled : Grid, settled.get? ⟨0, 0⟩ = some { value := .int 2 } ∧
        Cell.Holds { value := .int 6, formula := some "=A1*3" }
          ((evaluateText (tripleSheet.withGrid settled) "=A1*3").outcome {}) := by
  have hReadable : tripleSheet.IsReadable := by
    apply isReadable_of_entries
    intro entry hEntry text hText f hParse
    simp only [tripleSheet, List.mem_cons, List.not_mem_nil, or_false] at hEntry
    rcases hEntry with rfl | rfl
    · cases hText
    · cases hText
      have hTree : Formula.parse "=A1*3" = .ok (.binary .multiply (.cell "A1") (.number "3")) := by
        cbv
      rw [hTree] at hParse
      cases hParse
      decide
  have hPass : (evaluateGrid tripleSheet).outcome (after tripleSheet []) =
      .ok [(⟨0, 0⟩, { value := .int 2 }),
        (⟨0, 1⟩, { value := .int 6, formula := some "=A1*3" })] := by cbv
  obtain ⟨t, hRun⟩ := exists_of_outcome_ok hPass
  obtain ⟨hCoordinates, settled, hSettled, hCells⟩ := evaluateGrid_settles hReadable [] hRun
  refine ⟨hReadable, _, t, hRun, hCoordinates, settled, ?_, ?_⟩
  · rw [Grid.get?_eq_some_iff, hSettled]
    simp
  · refine ((hCells ⟨0, 1⟩ { formula := some "=A1*3" } _ (by simp [tripleSheet])
      (by simp)).2 "=A1*3" rfl).2.2 ?_
    rintro e ⟨u, hVisit, hEnd⟩
    have hClean : Recursion.CleanWithin tripleSheet (depthOf tripleSheet) ⟨0, 1⟩ :=
      ⟨some { value := .int 6, formula := some "=A1*3" }, by cbv, rfl⟩
    obtain ⟨cell, hCell, -⟩ := evaluateCell_of_clean
      (visits_faithful (after_faithful tripleSheet []) hVisit) hClean
    rw [hEnd] at hCell
    cases hCell

end Resolver
end Spreadsheet
