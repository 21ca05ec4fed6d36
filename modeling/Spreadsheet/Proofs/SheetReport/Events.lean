import Spreadsheet.Proofs.EventLog.Emit
import Spreadsheet.Proofs.Resolver.SettledSheet
import Spreadsheet.Proofs.SheetReport.Entries

/-!
# What a log holds about a report

The report on a grid shows what a pass over the grid settles. A log that started empty holds a
warning for each entry that failed, in the order of the entries, and after them the event about the
sheet, which counts the entries and those that failed. The report is there whatever becomes of the
log.
-/

set_option autoImplicit false

namespace Spreadsheet

def ReportEntry.hasFailed (entry : ReportEntry) : Bool := entry.cell.error.isSome

namespace SheetReport

open Resolver ReportEntry Evaluation

variable {ctx : EvaluationContext} {report : SheetReport} {entry : ReportEntry} {e : Event}
  (clock : Clock) (source : Option String)

/-! ## What the events say -/

def failing (report : SheetReport) : List ReportEntry := report.entries.filter hasFailed

/-- The event warns of the error of an entry, with its address and its formula cut to a bounded
length. -/
structure Warns (source : Option String) (entry : ReportEntry) (e : Event) : Prop where
  version : e.schemaVersion = 1
  error : entry.cell.error = some e.message
  level : e.level = .warning
  type : e.type = if entry.cell.isCircular then .circularReference else .cellError
  code : e.errorCode = some
    (if entry.cell.isCircular then ErrorCode.circularReference else .formulaEvaluation).name
  context : e.context = [
    ("address", .text (cutText entry.address)),
    ("formula", Event.textValue? (entry.cell.formula.map cutText)),
    ("source", Event.textValue? (source.map cutText))]

/-- The event counts the entries of a report and those that failed, and is a warning if there are
any. -/
structure Summarizes (clock : Clock) (source : Option String) (report : SheetReport) (e : Event) :
    Prop where
  version : e.schemaVersion = 1
  type : e.type = .sheetEvaluated
  context : e.context = [
    ("source", Event.textValue? (source.map cutText)),
    ("n_cells", .int report.entries.length),
    ("n_errors", .int report.failing.length),
    ("duration_ms", .float clock.elapsed)]
  level : e.level = if report.failing.isEmpty then .info else .warning
  code : e.errorCode = if report.failing.isEmpty then none else some ErrorCode.sheetHasErrors.name

theorem cut_textValue? (s : Option String) :
    (Event.textValue? s).cut = Event.textValue? (s.map cutText) := by
  cases s <;> rfl

theorem warns_of_cellEvent? (h : cellEvent? clock.time source entry = some e) :
    Warns source entry e.cut := by
  rw [cellEvent?, Option.map_eq_some_iff] at h
  obtain ⟨error, hError, rfl⟩ := h
  constructor
  · rfl
  · exact hError
  · rfl
  · simp only [Event.cut]
    split_ifs <;> rfl
  · simp only [Event.cut]
    split_ifs <;> rfl
  · simp only [Event.cut, List.map_cons, List.map_nil, cut_textValue?]
    rfl

theorem forall₂_warns (entries : List ReportEntry) :
    List.Forall₂ (Warns source) (entries.filter hasFailed)
      ((entries.filterMap (cellEvent? clock.time source)).map Event.cut) := by
  induction entries with
  | nil => exact .nil
  | cons entry rest ih =>
    cases hEvent : cellEvent? clock.time source entry with
    | none =>
      have hSound : ¬ entry.hasFailed = true := by
        rw [cellEvent?, Option.map_eq_none_iff] at hEvent
        rw [hasFailed, hEvent]
        exact Bool.false_ne_true
      rw [List.filterMap_cons_none hEvent, List.filter_cons_of_neg hSound]
      exact ih
    | some e =>
      have hWarns := warns_of_cellEvent? clock source hEvent
      have hFailed : entry.hasFailed = true := by
        rw [hasFailed, hWarns.error]
        rfl
      rw [List.filterMap_cons_some hEvent, List.filter_cons_of_pos hFailed, List.map_cons]
      exact .cons hWarns ih

theorem errorCount_eq (report : SheetReport) : report.errorCount = report.failing.length :=
  List.countP_eq_length_filter

theorem summarizes_sheetEvent (report : SheetReport) :
    Summarizes clock source report (report.sheetEvent clock source).cut := by
  have hEmpty : (report.failing.length == 0) = report.failing.isEmpty := by
    cases report.failing <;> rfl
  rw [sheetEvent_eq, errorCount_eq]
  constructor
  · rfl
  · rfl
  · simp only [summary, Event.cut, List.map_cons, List.map_nil, cut_textValue?]
    rfl
  · rw [← hEmpty]
    rfl
  · rw [← hEmpty]
    rfl

/-! ## Lines -/

variable {clock source}

theorem Warns.exists_line (h : Warns source entry e) : ∃ cs, EventLog.line e = .ok cs := by
  have hVersion : Decimal.isWritable e.schemaVersion = true := by
    rw [h.version]
    decide
  refine EventLog.exists_line_of_hasText hVersion ?_
  simp only [h.context, List.forall_mem_cons]
  exact ⟨Json.hasText_of_isPlain (.text _), Json.hasText_of_isPlain (Event.textValue?_isPlain _),
    Json.hasText_of_isPlain (Event.textValue?_isPlain _), List.forall_mem_nil _⟩

theorem Summarizes.exists_line (h : Summarizes clock source report e)
    (hCount : report.entries.length < 10 ^ Decimal.digitLimit) :
    ∃ cs, EventLog.line e = .ok cs := by
  have hVersion : Decimal.isWritable e.schemaVersion = true := by
    rw [h.version]
    decide
  have hWritable {n : Nat} (hn : n ≤ report.entries.length) : Json.HasText (.int n) :=
    Json.hasText_of_isPlain (.int (Decimal.isWritable_of_lt (Nat.lt_of_le_of_lt hn hCount)))
  refine EventLog.exists_line_of_hasText hVersion ?_
  simp only [h.context, List.forall_mem_cons]
  exact ⟨Json.hasText_of_isPlain (Event.textValue?_isPlain _), hWritable (Nat.le_refl _),
    hWritable (List.length_filter_le _ _), Json.hasText_float _, List.forall_mem_nil _⟩

/-! ## The report and its log -/

/-- A log that started empty holds the warnings about a complete report and then its summary. -/
theorem exists_told {log : EventLog} {files : Files} (hWhole : report.fault = none)
    (hLog : files.Holds log.path []) :
    ∃ warnings summary, List.Forall₂ (Warns source) report.failing warnings ∧
      Summarizes clock source report summary ∧
      (EventLog.emitAll (some log) files (report.events clock source)).Holds log.path
        ((warnings ++ [summary]).flatMap EventLog.lineBytes) := by
  have hEvents : (report.events clock source).map Event.cut =
      (report.entries.filterMap (cellEvent? clock.time source)).map Event.cut ++
        [(report.sheetEvent clock source).cut] := by
    rw [events, hWhole, List.map_append]
    rfl
  have hHolds := EventLog.emitAll_holds hLog (report.events clock source)
  rw [List.nil_append, hEvents] at hHolds
  exact ⟨_, _, forall₂_warns clock source report.entries,
    summarizes_sheetEvent clock source report, hHolds⟩

/-- A report on a grid that does not break off shows what a pass over the grid settles, and a log
that started empty holds a warning for each entry that failed and then the event that counts them.
Made cell by cell, telling of each failure right away, it is the same report whatever becomes of the
events. -/
theorem evaluate_shown_and_told (ctx : EvaluationContext)
    (hGrid : ∀ c ∈ ctx.grid.coordinates, c.isInGrid = true)
    (hReport : (evaluate ctx).outcome {} = .ok report) (hWhole : report.fault = none) :
    ∃ results, (evaluateGrid ctx).outcome {} = .ok results ∧
      results.map (·.1) = ctx.grid.coordinates ∧
      ShowsAll results report ∧
      (∀ {State : Type} (tell : State → Event → State) (clock : Clock) (source : Option String)
          (told : State), passOver tell clock source (rowMajor results) { told } =
        (report, (report.events clock source).foldl tell told)) ∧
      ∀ (log : EventLog) (files : Files) (clock : Clock) (source : Option String),
        files.Holds log.path [] →
        ∃ warnings summary, List.Forall₂ (Warns source) report.failing warnings ∧
          Summarizes clock source report summary ∧
          (EventLog.emitAll (some log) files (report.events clock source)).Holds log.path
            ((warnings ++ [summary]).flatMap EventLog.lineBytes) ∧
          (∀ e ∈ warnings, ∃ cs, EventLog.line e = .ok cs) ∧
          (ctx.grid.size < 10 ^ Decimal.digitLimit → ∃ cs, EventLog.line summary = .ok cs) := by
  obtain ⟨results, hRun, hCoordinates, rfl⟩ := exists_of_evaluate hReport
  have hDistinct : (results.map (·.1)).Nodup := by
    rw [hCoordinates]
    exact ctx.grid.nodup
  have hInGrid : ∀ settled ∈ results, settled.1.isInGrid = true := by
    intro settled hSettled
    apply hGrid
    rw [← hCoordinates]
    exact List.mem_map_of_mem hSettled
  refine ⟨results, hRun, hCoordinates, showsAll_ofCells hInGrid hDistinct hWhole,
    fun tell clock source told =>
      passOver_eq tell clock source told (nodup_addresses hInGrid hDistinct),
    fun log files clock source hLog => ?_⟩
  obtain ⟨warnings, summary, hWarns, hSummary, hHolds⟩ := exists_told hWhole hLog
  refine ⟨warnings, summary, hWarns, hSummary, hHolds, ?_, fun hCount => ?_⟩
  · exact Json.forall_of_forall₂ hWarns.flip fun _ _ h => h.exists_line
  · have hLength := congrArg List.length hCoordinates
    rw [List.length_map, Grid.coordinates, List.length_map] at hLength
    rw [Grid.size, ← hLength, ← length_entries_ofCells hWhole] at hCount
    exact hSummary.exists_line hCount

/-- A sheet with a cell that refers to itself, above which another cell stands. -/
def selfSheet : EvaluationContext where
  grid := ⟨[(⟨1, 0⟩, { formula := some "=A2" }), (⟨0, 0⟩, { value := .int 7 })], by decide⟩

def selfCell : Cell where
  error := some "Circular cell reference: A2 -> A2"
  formula := some "=A2"

theorem evaluateGrid_selfSheet : (evaluateGrid selfSheet).outcome {} =
    .ok [(⟨1, 0⟩, selfCell), (⟨0, 0⟩, { value := .int 7 })] := by
  have hCell : failedCell { formula := some "=A2" } (.circular [⟨1, 0⟩, ⟨1, 0⟩]) = selfCell := by
    cbv
  have hFails : (evaluateCell selfSheet ⟨1, 0⟩).outcome {} =
      .error (.formula (.circular [⟨1, 0⟩, ⟨1, 0⟩])) := by cbv
  have hFirst : settledEntry (⟨1, 0⟩, { formula := some "=A2" })
      ((evaluateCell selfSheet ⟨1, 0⟩).outcome {}) = .ok (some (⟨1, 0⟩, selfCell)) := by
    rw [hFails, ← hCell]
    rfl
  have hFaithful := evaluateCell_final_faithful (Session.faithful_empty selfSheet) ⟨1, 0⟩
  have hSecond : settledEntry (⟨0, 0⟩, { value := .int 7 }) ((evaluateCell selfSheet ⟨0, 0⟩).outcome
      ((evaluateCell selfSheet ⟨1, 0⟩).final {})) = .ok (some (⟨0, 0⟩, { value := .int 7 })) := by
    rw [evaluateCell_literal hFaithful rfl]
    rfl
  exact outcome_evaluateEntries_cons hFirst (outcome_evaluateEntries_cons hSecond rfl)

/-- The circular cell stands second in the report; the log warns of it and counts it. -/
theorem evaluate_shown_and_told_selfSheet : ∃ report,
    (evaluate selfSheet).outcome {} = .ok report ∧
    report.entries.map (·.address) = ["A1", "A2"] ∧
    ∀ (log : EventLog) (files : Files) (clock : Clock), files.Holds log.path [] →
      ∃ warning summary, warning.type = .circularReference ∧
        warning.message = "Circular cell reference: A2 -> A2" ∧
        summary.errorCode = some "sheet_has_errors" ∧
        (EventLog.emitAll (some log) files (report.events clock none)).Holds log.path
          (EventLog.lineBytes warning ++ EventLog.lineBytes summary) := by
  have hGrid : ∀ c ∈ selfSheet.grid.coordinates, c.isInGrid = true := by decide
  have hReport : (evaluate selfSheet).outcome {} =
      .ok ⟨[⟨{ value := .int 7 }, "A1", "7"⟩, ⟨selfCell, "A2", "#CIRC!"⟩], none⟩ := by
    rw [evaluate_eq_map, outcome_map, evaluateGrid_selfSheet]
    cbv
  obtain ⟨-, -, -, -, -, hTold⟩ := evaluate_shown_and_told selfSheet hGrid hReport rfl
  refine ⟨_, hReport, rfl, fun log files clock hLog => ?_⟩
  obtain ⟨warnings, summary, hWarns, hSummary, hHolds, -, -⟩ := hTold log files clock none hLog
  cases hWarns with
  | @cons entry warning _ _ hFirst hNone =>
    cases hNone
    refine ⟨warning, summary, ?_, ?_, hSummary.code, ?_⟩
    · rw [hFirst.type]
      decide
    · exact (Option.some.inj hFirst.error).symm
    · simpa using hHolds

end SheetReport
end Spreadsheet
