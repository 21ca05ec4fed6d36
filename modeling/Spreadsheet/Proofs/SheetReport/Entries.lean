import Spreadsheet.SheetReport
import Spreadsheet.Proofs.Address.Rectangle
import Spreadsheet.Proofs.Address.RoundTrip
import Spreadsheet.Proofs.Resolver.Request

/-!
# The entries of a report

A report that does not break off has one entry for each settled cell, row by row. Making it cell by
cell, and telling about each cell that failed right away, comes to the same report, whatever becomes
of what is told.
-/

set_option autoImplicit false

namespace Spreadsheet

namespace SheetReport

open Resolver

variable {ctx : EvaluationContext} {cells : List (Coordinate × Cell)} {entries : List ReportEntry}
  {report : SheetReport}

/-! ## One entry for each cell -/

/-- The entry shows a settled cell under the address of its coordinate. -/
structure Shows (settled : Coordinate × Cell) (entry : ReportEntry) : Prop where
  address : entry.address = settled.1.address
  cell : entry.cell = settled.2
  display : settled.2.display = .ok entry.display

theorem perm_rowMajor (cells : List (Coordinate × Cell)) : (rowMajor cells).Perm cells :=
  List.mergeSort_perm cells _

theorem pairwise_rowMajor (h : (cells.map (·.1)).Nodup) :
    (rowMajor cells).Pairwise fun a b => a.1.Precedes b.1 := by
  have hTrans (a b c : Coordinate × Cell) (hab : a.1.le b.1 = true) (hbc : b.1.le c.1 = true) :
      a.1.le c.1 = true := Coordinate.le_trans hab hbc
  have hTotal (a b : Coordinate × Cell) : (a.1.le b.1 || b.1.le a.1) = true :=
    Coordinate.le_total a.1 b.1
  have hOrdered : (rowMajor cells).Pairwise fun a b => a.1.le b.1 = true :=
    List.pairwise_mergeSort hTrans hTotal cells
  have hDistinct : (rowMajor cells).Pairwise fun a b => a.1 ≠ b.1 :=
    List.pairwise_map.mp (((perm_rowMajor cells).map Prod.fst).nodup_iff.mpr h)
  exact (List.pairwise_and_iff.mpr ⟨hOrdered, hDistinct⟩).imp fun hBoth =>
    Coordinate.precedes_of_le hBoth.1 hBoth.2

theorem shows_of_ofCells (h : (ofCells cells).fault = none) :
    List.Forall₂ Shows cells (ofCells cells).entries := by
  induction cells with
  | nil => exact .nil
  | cons settled rest ih =>
    obtain ⟨c, cell⟩ := settled
    cases hDisplay : cell.display with
    | error fault =>
      simp only [ofCells, hDisplay] at h
      cases h
    | ok display =>
      simp only [ofCells, hDisplay] at h ⊢
      exact .cons ⟨rfl, rfl, hDisplay⟩ (ih h)

theorem nodup_addresses (hGrid : ∀ settled ∈ cells, settled.1.isInGrid = true)
    (hNodup : (cells.map (·.1)).Nodup) : ((rowMajor cells).map (·.1.address)).Nodup := by
  have hPairwise := List.pairwise_map.mp hNodup
  have hAddresses : (cells.map (·.1.address)).Nodup := by
    refine List.pairwise_map.mpr (hPairwise.imp_of_mem fun ha hb hNe hSame => ?_)
    exact hNe (Coordinate.address_inj (hGrid _ ha) (hGrid _ hb) hSame)
  exact ((perm_rowMajor cells).map _).nodup_iff.mpr hAddresses

/-- The report has one entry for each settled cell, row by row and under different addresses. -/
structure ShowsAll (results : List (Coordinate × Cell)) (report : SheetReport) : Prop where
  rows : ∃ ordered, ordered.Perm results ∧ ordered.Pairwise (fun a b => a.1.Precedes b.1) ∧
    List.Forall₂ Shows ordered report.entries
  addresses : (report.entries.map (·.address)).Nodup

theorem addresses_of_shows (h : List.Forall₂ Shows cells entries) :
    entries.map (·.address) = cells.map (·.1.address) := by
  induction h with
  | nil => rfl
  | cons hShows _ ih => rw [List.map_cons, List.map_cons, ih, hShows.address]

theorem showsAll_ofCells (hGrid : ∀ settled ∈ cells, settled.1.isInGrid = true)
    (hNodup : (cells.map (·.1)).Nodup) (h : (ofCells (rowMajor cells)).fault = none) :
    ShowsAll cells (ofCells (rowMajor cells)) := by
  have hShows := shows_of_ofCells h
  refine ⟨⟨_, perm_rowMajor cells, pairwise_rowMajor hNodup, hShows⟩, ?_⟩
  rw [addresses_of_shows hShows]
  exact nodup_addresses hGrid hNodup

theorem length_entries_ofCells (h : (ofCells (rowMajor cells)).fault = none) :
    (ofCells (rowMajor cells)).entries.length = cells.length := by
  rw [← (shows_of_ofCells h).length_eq, (perm_rowMajor cells).length_eq]

theorem evaluate_eq_map (ctx : EvaluationContext) :
    evaluate ctx = (fun results => ofCells (rowMajor results)) <$> evaluateGrid ctx := rfl

theorem exists_of_evaluate (h : (evaluate ctx).outcome {} = .ok report) :
    ∃ results, (evaluateGrid ctx).outcome {} = .ok results ∧
      results.map (·.1) = ctx.grid.coordinates ∧ report = ofCells (rowMajor results) := by
  rw [evaluate_eq_map, Evaluation.outcome_map] at h
  cases hRun : evaluateGrid ctx {} with
  | error e t =>
    rw [Evaluation.outcome_of_error hRun] at h
    cases h
  | ok results t =>
    rw [Evaluation.outcome_of_ok hRun] at h
    cases h
    exact ⟨results, Evaluation.outcome_of_ok hRun,
      coordinates_of_evaluateGrid (Session.faithful_empty ctx) hRun, rfl⟩

/-! ## Cell by cell -/

/-- What there is of a report while it is made: the entries so far, how many of them failed, and
what became of what was told so far. -/
structure Pass (State : Type) where
  entries : List ReportEntry := []
  failed : Nat := 0
  told : State

/-- Sets the entry under an address: an entry that is there already keeps its place. -/
def setAddress (entry : ReportEntry) : List ReportEntry → List ReportEntry
  | [] => [entry]
  | other :: rest =>
    if other.address == entry.address then entry :: rest else other :: setAddress entry rest

/-- The event about a sheet with so many cells, of which so many failed. -/
def summary (clock : Clock) (source : Option String) (cells failed : Nat) : Event :=
  let summary := "Evaluated " ++ Decimal.natText cells ++ " cells"
  { time := clock.time
    level := if failed == 0 then .info else .warning
    type := .sheetEvaluated
    context := [
      ("source", Event.textValue? source),
      ("n_cells", .int cells),
      ("n_errors", .int failed),
      ("duration_ms", .float clock.elapsed)]
    message :=
      if failed == 0 then summary
      else summary ++ " with " ++ Decimal.natText failed ++ " error(s)"
    errorCode := if failed == 0 then none else some ErrorCode.sheetHasErrors.name }

theorem sheetEvent_eq (clock : Clock) (source : Option String) (report : SheetReport) :
    report.sheetEvent clock source =
      summary clock source report.entries.length report.errorCount := rfl

section CellByCell

variable {State : Type} (tell : State → Event → State) (clock : Clock) (source : Option String)

/-- Adds an entry to a report that is being made, and tells about it if its cell failed. -/
def Pass.add (pass : Pass State) (entry : ReportEntry) : Pass State where
  entries := setAddress entry pass.entries
  failed := if entry.cell.error.isSome then pass.failed + 1 else pass.failed
  told := ((cellEvent? clock.time source entry).map (tell pass.told)).getD pass.told

/-- Makes a report cell by cell, telling about the cells that failed and in the end about the sheet.
A cell that cannot be displayed breaks it off. -/
def passOver : List (Coordinate × Cell) → Pass State → SheetReport × State
  | [], pass =>
    ({ entries := pass.entries },
      tell pass.told (summary clock source pass.entries.length pass.failed))
  | (c, cell) :: rest, pass =>
    match cell.display with
    | .error fault => ({ entries := pass.entries, fault := some fault }, pass.told)
    | .ok display => passOver rest (pass.add tell clock source ⟨cell, c.address, display⟩)

theorem setAddress_of_notMem {entry : ReportEntry} (h : entry.address ∉ entries.map (·.address)) :
    setAddress entry entries = entries ++ [entry] := by
  induction entries with
  | nil => rfl
  | cons other rest ih =>
    rw [List.map_cons, List.mem_cons, not_or] at h
    have hOther : (other.address == entry.address) = false :=
      beq_eq_false_iff_ne.mpr (Ne.symm h.1)
    rw [setAddress, hOther, if_neg Bool.false_ne_true, ih h.2, List.cons_append]

/-- What there is after some entries, if no two of them have one address. -/
def Pass.reached (told : State) (done : List ReportEntry) : Pass State where
  entries := done
  failed := done.countP (·.cell.error.isSome)
  told := (done.filterMap (cellEvent? clock.time source)).foldl tell told

/-- A report with the entries that come before its own. -/
def after (done : List ReportEntry) (report : SheetReport) : SheetReport :=
  { report with entries := done ++ report.entries }

theorem Pass.add_reached (told : State) {done : List ReportEntry} {entry : ReportEntry}
    (h : entry.address ∉ done.map (·.address)) :
    (reached tell clock source told done).add tell clock source entry =
      reached tell clock source told (done ++ [entry]) := by
  rw [add, reached, reached, setAddress_of_notMem h, Pass.mk.injEq]
  refine ⟨rfl, ?_, ?_⟩
  · rw [List.countP_append, List.countP_singleton]
    split_ifs <;> rfl
  · rw [List.filterMap_append, List.foldl_append]
    cases hEvent : cellEvent? clock.time source entry with
    | none => simp [hEvent]
    | some e => simp [hEvent]

theorem passOver_reached (told : State) (done : List ReportEntry)
    (h : (done.map (·.address) ++ cells.map (·.1.address)).Nodup) :
    passOver tell clock source cells (.reached tell clock source told done) =
      ((ofCells cells).after done,
        (((ofCells cells).after done).events clock source).foldl tell told) := by
  induction cells generalizing done with
  | nil =>
    rw [passOver, events, List.foldl_append]
    simp [ofCells, after, Pass.reached, sheetEvent_eq, errorCount]
  | cons settled rest ih =>
    obtain ⟨c, cell⟩ := settled
    cases hDisplay : cell.display with
    | error fault =>
      simp [passOver, ofCells, hDisplay, after, events, Pass.reached]
    | ok display =>
      -- The entry for the first of the cells left is the last of those done.
      have hNew : c.address ∉ done.map (·.address) := fun hMem =>
        (List.nodup_append.mp h).2.2 _ hMem _ List.mem_cons_self rfl
      have hRest := ih (done ++ [⟨cell, c.address, display⟩]) (by simpa using h)
      have hReport : (ofCells ((c, cell) :: rest)).after done =
          (ofCells rest).after (done ++ [⟨cell, c.address, display⟩]) := by
        simp [ofCells, hDisplay, after]
      rw [hReport, ← hRest, ← Pass.add_reached tell clock source told hNew, passOver, hDisplay]

/-- Made cell by cell, a report on cells with different addresses is the same whatever becomes of
what is told, and the events about it are told in their order. -/
theorem passOver_eq (told : State) (h : (cells.map (·.1.address)).Nodup) :
    passOver tell clock source cells { told } =
      (ofCells cells, ((ofCells cells).events clock source).foldl tell told) :=
  passOver_reached tell clock source told [] h

end CellByCell

end SheetReport
end Spreadsheet
