import Spreadsheet.Proofs.Evaluation.FirstFailure
import Spreadsheet.Proofs.Function.Builtin
import Spreadsheet.Proofs.Resolver.Clean
import Spreadsheet.Proofs.Resolver.Failures

/-!
# The first failing reference

When the error of a cell is passed on, whatever prepared the cells before and in whatever order, it
is the error of the first failing reference in the order of the formula: of a reference of the
formula itself, and with every reference before it clean.
-/

set_option autoImplicit false

namespace Spreadsheet

open Evaluation

theorem Builtin.registry_reportsNoCell : registry.ReportsNoCell := by
  intro name f hFunction arguments address cause hFault
  obtain ⟨_, _, hName, -⟩ := functionFailed_of_registry hFunction hFault
  cases hName

namespace Resolver

variable {ctx : EvaluationContext} {s t : Session} {w : List Coordinate} {c : Coordinate}
  {d : Nat} {e : Failure} {f : Formula} {cell : Option Cell} {address cause : String}

/-- In this session the cell settles to one with this error, and there is no session in which it
settles otherwise. -/
def FailsWith (ctx : EvaluationContext) (s : Session) (c : Coordinate) (cause : String) : Prop :=
  ∃ cell, cell.error = some cause ∧ (evaluateCell ctx c).outcome s = .ok (some cell) ∧
    ∀ before other, (evaluateCell ctx c).outcome (after ctx before) = .ok other →
      other = some cell

theorem FailsWith.not_settlesClean (h : FailsWith ctx s c cause) : ¬ SettlesClean ctx c := by
  intro hClean
  obtain ⟨cell, hError, -, hOnly⟩ := h
  obtain ⟨other, hOther, hNone⟩ := hClean []
  rw [hNone cell (hOnly [] other hOther)] at hError
  cases hError

/-- With the memory on, what settles is kept. -/
theorem mem_settled_of_resolve (hOn : ctx.memoize = true) (h : resolve ctx d w c s = .ok cell t) :
    c ∈ t.settled := by
  have hKept : ∀ (u : Session) (x : Option Cell), c ∈ (u.answered ctx.memoize c x).settled := by
    intro u x
    rw [hOn]
    exact Session.mem_kept.mpr (.inl rfl)
  cases hSettled : s.settled[c]? with
  | some x =>
    rw [resolve_of_settled hSettled] at h
    cases h
    exact Std.HashMap.mem_iff_isSome_getElem?.mpr (by rw [hSettled]; rfl)
  | none =>
    by_cases hw : c ∈ w
    · rw [resolve_of_mem hSettled hw] at h
      cases h
    cases hText : formulaOf (ctx.grid.get? c) with
    | none =>
      rw [resolve_literal hSettled hw hText] at h
      cases h
      exact hKept _ _
    | some text =>
      cases d with
      | zero =>
        rw [resolve_zero hSettled hw hText] at h
        cases h
      | succ d =>
        obtain ⟨r, u, hRun⟩ := exists_ended
          (compute ctx (resolve ctx d (c :: w)) c text none) (s.noted (.lookup c))
        rw [resolve_succ hSettled hw hText hRun] at h
        cases r with
        | error e => cases h
        | ok x =>
          cases h
          exact hKept _ _

theorem settleWithin_of_resolveCell (hs : s.Faithful ctx) (h : resolveCell ctx c s = .ok cell t) :
    Recursion.settleWithin ctx (depthOf ctx) [] c = .ok cell := by
  cases hMemoize : ctx.memoize with
  | true =>
    rw [depthOf_on hMemoize]
    exact (resolveCell_ending hs c).eq_ok h
  | false =>
    obtain ⟨u, -, hRun | ⟨_, ⟨hShort, -⟩, -⟩⟩ :=
      resolve_follows_within (w := []) (c := c) hMemoize ctx.nestingLimit (fun _ _ => not_false)
        s hs
    · rw [depthOf_off hMemoize, ← outcome_of_ended hRun]
      exact outcome_of_ok h
    · exact hShort.elim

/-- What a cell settled to on the way, a request for it settles to afterwards. -/
theorem evaluateCell_of_resolveCell (hs : s.Faithful ctx)
    (h : resolveCell ctx c s = .ok cell t) : (evaluateCell ctx c).outcome t = .ok cell := by
  have hSettle := settleWithin_of_resolveCell hs h
  have ht : t.Faithful ctx := by
    rw [← final_of_ok h]
    exact (resolveCell_ending hs c).faithful
  cases hMemoize : ctx.memoize with
  | false =>
    obtain ⟨u, hRun⟩ := (evaluateCell_off hMemoize ht).mpr hSettle
    exact outcome_of_ok hRun
  | true =>
    have hMem := mem_settled_of_resolve hMemoize h
    have hPrepare : prepareAll ctx [c] t = .ok () t := by
      rw [prepareAll_on hMemoize, List.foldlM_cons, bind_assoc,
        bind_of_ok (prepare_of_settled hMem)]
      rfl
    rw [evaluateCell_of_mem ht hPrepare hMem]
    exact Recursion.settle_of_settlesWithin hSettle

theorem failsWith_of_resolveCell (hs : s.Faithful ctx) (h : resolveCell ctx c s = .ok cell t)
    (hError : errorOf cell = some cause) : FailsWith ctx t c cause := by
  cases cell with
  | none => cases hError
  | some x =>
    refine ⟨x, hError, evaluateCell_of_resolveCell hs h, fun before other hOther => ?_⟩
    obtain ⟨u, hRun⟩ := exists_of_outcome_ok hOther
    have hSame := settleWithin_of_evaluateCell (after_faithful ctx before) hRun
    rw [settleWithin_of_resolveCell hs h] at hSame
    exact (Except.ok.inj hSame).symm

theorem CellFailure.not_dependentCell : ¬ CellFailure (.formula (.dependentCell address cause)) :=
  nofun

/-- The error of a cell is the doing of the cell; all other failures are no cell's. -/
def errorVerdict (ctx : EvaluationContext) : Formula.Verdict Session where
  clean := SettlesClean ctx
  own e := ∀ address cause, e ≠ .formula (.dependentCell address cause)
  blames t c e := ∀ address cause, e = .formula (.dependentCell address cause) →
    Coordinate.ofAddress address = .ok c ∧ FailsWith ctx t c cause

theorem resolver_discerns (hFunctions : ctx.functions.ReportsNoCell) :
    Formula.Discerns (Session.Faithful ctx) (errorVerdict ctx) (fun _ => True)
      (surroundings ctx (resolveCell ctx)) where
  plain := by
    rintro _ ⟨⟩ <;> exact nofun
  reported fault hReports := by
    rintro address cause ⟨⟩
    exact hFunctions.not_reports address cause hReports
  failed _ _ := nofun
  noteCall key arguments s hs :=
    ⟨.ok (), s.noted (.call key arguments), rfl, hs, fun _ _ => nofun, nofun⟩
  settle c address _ hAddress := by
    refine Formula.comesTo_valueOf fun s hs => ?_
    obtain ⟨r, t, hRun⟩ := exists_ended (resolveCell ctx c) s
    have ht : t.Faithful ctx := by
      rw [← final_of_ended hRun]
      exact (resolveCell_ending hs c).faithful
    refine ⟨r, t, hRun, ht, ?_, ?_, ?_⟩
    · rintro cell rfl hError
      exact settlesClean_of_cleanWithin ⟨cell, settleWithin_of_resolveCell hs hRun, hError⟩
    · rintro cell cause rfl hError
      refine .inr ⟨[], c, [], rfl, ?_, nofun⟩
      rintro _ _ ⟨⟩
      exact ⟨hAddress, failsWith_of_resolveCell hs hRun hError⟩
    · -- where the cell has no answer, what it fails with is not the error of a cell
      rintro e rfl
      refine .inl ?_
      rintro address' cause rfl
      exact (resolve_cellFailure _ _ _ hRun).not_dependentCell

theorem evaluate_blamesFirst (hFunctions : ctx.functions.ReportsNoCell) (hs : s.Faithful ctx)
    {cs : List Coordinate} (hReferences : f.references ctx.rangeLimit = .ok cs)
    (h : evaluate ctx f s = .error e t) : Formula.BlamesFirst (errorVerdict ctx) cs t e := by
  rw [evaluate_eq, hReferences, lift_ok, pure_bind] at h
  cases hPrepare : prepareAll ctx cs s with
  | error e' u =>
    rw [bind_of_error hPrepare] at h
    cases h
    refine .inl ?_
    rintro address cause rfl
    exact (prepareAll_cellFailure cs _ _ _ hPrepare).not_dependentCell
  | ok _ u =>
    obtain ⟨r, v, hRun, -, -, hBlames⟩ := f.evaluate_comesTo (resolver_discerns hFunctions)
      hReferences (fun _ _ => trivial) u (prepareAll_ok hs hPrepare).1
    rw [bind_of_ok hPrepare, reportDepth_run hRun] at h
    obtain ⟨hReported, rfl⟩ := eq_of_ended_error h.symm
    rcases reported_eq_error hReported with rfl | ⟨-, rfl⟩
    · exact hBlames e rfl
    · refine .inl ?_
      rintro address cause ⟨⟩

/-- An error that is passed on is that of the first failing reference. -/
theorem exists_first_failing (hFunctions : ctx.functions.ReportsNoCell) (hs : s.Faithful ctx)
    {cs : List Coordinate} (hReferences : f.references ctx.rangeLimit = .ok cs)
    (h : evaluate ctx f s = .error (.formula (.dependentCell address cause)) t) :
    ∃ done c rest, cs = done ++ c :: rest ∧ Coordinate.ofAddress address = .ok c ∧
      FailsWith ctx t c cause ∧ ∀ z ∈ done, SettlesClean ctx z := by
  rcases evaluate_blamesFirst hFunctions hs hReferences h with
    hOwn | ⟨done, c, rest, hLists, hBlames, hDone⟩
  · exact absurd rfl (hOwn address cause)
  · obtain ⟨hAddress, hFails⟩ := hBlames address cause rfl
    exact ⟨done, c, rest, hLists, hAddress, hFails, hDone⟩

/-- When a formula passes the error of a cell on, the cell is a reference of the formula itself,
perhaps the member of a range, and what is passed on is its error. It is the first of the references
that fails: all those before it settle without an error, in every session. -/
theorem blames_first_failing_reference (hFunctions : ctx.functions.ReportsNoCell)
    (before : List Request)
    (h : evaluate ctx f (after ctx before) = .error (.formula (.dependentCell address cause)) t) :
    ∃ done c rest, f.references ctx.rangeLimit = .ok (done ++ c :: rest) ∧
      Coordinate.ofAddress address = .ok c ∧ FailsWith ctx t c cause ∧
      ∀ z ∈ done, SettlesClean ctx z := by
  cases hReferences : f.references ctx.rangeLimit with
  | error e =>
    rw [evaluate_of_references_error hReferences] at h
    cases h
    exact absurd hReferences (f.references_ne_formula _)
  | ok cs =>
    obtain ⟨done, c, rest, rfl, hRest⟩ := exists_first_failing hFunctions
      (after_faithful ctx before) hReferences h
    exact ⟨done, c, rest, rfl, hRest⟩

/-- A sheet with a number and two cells with an error. -/
def brokenSheet : EvaluationContext where
  grid := ⟨[(⟨0, 2⟩, { error := some "worn" }), (⟨0, 1⟩, { error := some "torn" }),
    (⟨0, 0⟩, { value := .int 2 })], by decide⟩
  functions := Builtin.registry

/-- The member of the range is named, since the formula comes to it first. -/
theorem blames_first_failing_reference_on_brokenSheet :
    brokenSheet.functions.ReportsNoCell ∧ ∃ t,
      evaluate brokenSheet (.call "sum" [.range "A1" "B1", .cell "C1"]) (after brokenSheet []) =
        .error (.formula (.dependentCell "B1" "torn")) t ∧
      ∃ done c rest, Formula.references none (.call "sum" [.range "A1" "B1", .cell "C1"]) =
          .ok (done ++ c :: rest) ∧
        Coordinate.ofAddress "B1" = .ok c ∧ FailsWith brokenSheet t c "torn" ∧
        ∀ z ∈ done, SettlesClean brokenSheet z := by
  have hOutcome : (evaluate brokenSheet (.call "sum" [.range "A1" "B1", .cell "C1"])).outcome
      (after brokenSheet []) = .error (.formula (.dependentCell "B1" "torn")) := by cbv
  obtain ⟨t, hRun⟩ := exists_of_outcome_error hOutcome
  exact ⟨Builtin.registry_reportsNoCell, t, hRun,
    blames_first_failing_reference Builtin.registry_reportsNoCell [] hRun⟩

end Resolver
end Spreadsheet
