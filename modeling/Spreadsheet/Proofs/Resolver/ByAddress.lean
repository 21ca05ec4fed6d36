import Spreadsheet.Proofs.Address.RoundTrip
import Spreadsheet.Proofs.Formula.Rendering
import Spreadsheet.Proofs.Resolver.Agreement
import Spreadsheet.Proofs.Resolver.SettledSheet
import Spreadsheet.Proofs.Resolver.Walk

/-!
# Asking for a cell by its address

The address of a coordinate, taken as a formula, is a reference to the cell there. So it prepares
and settles what a request for the cell does, and its value is what the settled cell holds.
-/

set_option autoImplicit false

namespace Spreadsheet

open Evaluation

theorem Formula.parse_address {c : Coordinate} (h : c.isInGrid = true) :
    parse c.address = .ok (.cell c.address) := by
  have hUpper := Coordinate.upper_address h
  have hRead := parse_render_of_isSpelled (f := .cell c.address) (Coordinate.spells_address h)
  rwa [render, capitalized, hUpper] at hRead

namespace Resolver

variable {ctx : EvaluationContext} {s : Session} {c : Coordinate}

/-- How the answer to a request for a cell is seen by the formula that is just the address of the
cell: an absent cell has no value, the error of a cell is passed on under its address, and what ends
the one request ends the other. Both may report that they get too deep, in their own words. -/
inductive SeenAs (address : String) : Except Failure (Option Cell) → Except Failure Value → Prop
  | absent : SeenAs address (.ok none) (.ok .null)
  | failed {cell : Cell} {cause : String} (h : cell.error = some cause) :
      SeenAs address (.ok (some cell)) (.error (.formula (.dependentCell address cause)))
  | valued {cell : Cell} (h : cell.error = none) : SeenAs address (.ok (some cell)) (.ok cell.value)
  | raised (e : Failure) : SeenAs address (.error e) (.error e)
  | deep {e e' : Failure} (h : e.IsDepth) (h' : e'.IsDepth) : SeenAs address (.error e) (.error e')

theorem exists_seenAs_valueOf (address : String) (cell : Option Cell) (s : Session) :
    ∃ v, Formula.valueOf address cell s = ended v s ∧ v ≠ .error .tooDeep ∧
      SeenAs address (.ok cell) v := by
  cases cell with
  | none => exact ⟨.ok .null, rfl, by simp, .absent⟩
  | some cell =>
    cases hError : cell.error with
    | none =>
      refine ⟨.ok cell.value, ?_, by simp, .valued hError⟩
      simp only [Formula.valueOf, hError]
      rfl
    | some cause =>
      refine ⟨.error (.formula (.dependentCell address cause)), ?_, by simp, .failed hError⟩
      simp only [Formula.valueOf, hError]
      rfl

theorem evaluateText_address (h : c.IsAddressable) :
    evaluateText ctx c.address =
      (do prepareAll ctx [c]
          reportDepth (.ok none) (resolveCell ctx c >>= Formula.valueOf c.address)) := by
  have hReferences : (Formula.cell c.address).references ctx.rangeLimit = .ok [c] := by
    rw [Formula.references, Coordinate.ofAddress_address h]
    rfl
  rw [evaluateText, treeOf, Formula.parse_address h.isInGrid]
  simp only [pure_bind]
  rw [evaluate_eq, hReferences, lift_ok, pure_bind, Formula.evaluate,
    Coordinate.ofAddress_address h, lift_ok, pure_bind, Coordinate.upper_address h.isInGrid]
  rfl

theorem seenAs_reportDepth (x : Step (Option Cell)) (address : String) (s : Session) :
    SeenAs address ((reportDepth (.ok (some address)) x).outcome s)
      ((reportDepth (.ok none) (x >>= Formula.valueOf address)).outcome s) := by
  obtain ⟨a, t, hRun⟩ := exists_ended x s
  rw [outcome_of_ended (reportDepth_run hRun)]
  cases a with
  | ok cell =>
    obtain ⟨v, hValue, hShallow, hSeen⟩ := exists_seenAs_valueOf address cell t
    have hBoth : (x >>= Formula.valueOf address) s = ended v t := by rw [bind_of_ok hRun, hValue]
    rw [outcome_of_ended (reportDepth_of_ended (.ok none) hBoth hShallow)]
    exact hSeen
  | error e =>
    rw [outcome_of_ended (reportDepth_run (a := .error e) (bind_of_error hRun))]
    cases e with
    | tooDeep => exact .deep trivial trivial
    | formula fault => exact .raised _
    | numeric fault => exact .raised _

theorem seenAs_evaluateText (h : c.IsAddressable) (s : Session) :
    SeenAs c.address ((evaluateCell ctx c).outcome s) ((evaluateText ctx c.address).outcome s) := by
  rw [evaluateText_address h, evaluateCell_eq, h.toAddress_eq]
  cases hPrepare : prepareAll ctx [c] s with
  | error e t =>
    rw [outcome_of_error (bind_of_error hPrepare), outcome_of_error (bind_of_error hPrepare)]
    exact .raised e
  | ok _ t =>
    simp only [outcome, bind_of_ok hPrepare]
    exact seenAs_reportDepth (resolveCell ctx c) c.address t

/-- Asking for a cell by its address, as a formula, and asking for it by its coordinate agree. Where
the grid has no cell, there is neither a cell nor a value. -/
theorem address_answers_as_cell (ctx : EvaluationContext) (h : c.IsAddressable) :
    c.toAddress = .ok c.address ∧
    (ctx.grid.get? c = none → (evaluateCell ctx c).outcome {} = .ok none ∧
      (evaluateText ctx c.address).outcome {} = .ok .null) ∧
    SeenAs c.address ((evaluateCell ctx c).outcome {})
      ((evaluateText ctx c.address).outcome {}) := by
  have hSeen : SeenAs c.address ((evaluateCell ctx c).outcome {})
      ((evaluateText ctx c.address).outcome {}) := seenAs_evaluateText h {}
  refine ⟨h.toAddress_eq, fun hNone => ?_, hSeen⟩
  have hText : formulaOf (ctx.grid.get? c) = none := by rw [hNone]; rfl
  have hCell := evaluateCell_literal (Session.faithful_empty ctx) hText
  rw [hNone] at hCell
  rw [hCell] at hSeen
  refine ⟨hCell, ?_⟩
  cases hValue : (evaluateText ctx c.address).outcome {} with
  | ok v =>
    rw [hValue] at hSeen
    cases hSeen
    rfl
  | error e =>
    rw [hValue] at hSeen
    cases hSeen

/-- A cell above a cycle: the cycle ends both requests, with the same path. -/
theorem address_answers_as_cell_above_cycle : (⟨0, 1⟩ : Coordinate).IsAddressable ∧
    (⟨0, 1⟩ : Coordinate).address = "B1" ∧
    (evaluateCell loopSheet ⟨0, 1⟩).outcome {} =
      .error (.formula (.circular [⟨0, 0⟩, ⟨0, 0⟩])) ∧
    (evaluateText loopSheet "B1").outcome {} =
      .error (.formula (.circular [⟨0, 0⟩, ⟨0, 0⟩])) := by
  have hRead : Coordinate.ofAddress "B1" = .ok ⟨0, 1⟩ := by cbv
  have hAddressable := Coordinate.isAddressable_of_ofAddress hRead
  have hAddress : (⟨0, 1⟩ : Coordinate).address = "B1" := by cbv
  have hCell : (evaluateCell loopSheet ⟨0, 1⟩).outcome {} =
      .error (.formula (.circular [⟨0, 0⟩, ⟨0, 0⟩])) := by cbv
  obtain ⟨-, -, hSeen⟩ := address_answers_as_cell loopSheet hAddressable
  rw [hCell, hAddress] at hSeen
  refine ⟨hAddressable, hAddress, hCell, ?_⟩
  generalize (evaluateText loopSheet "B1").outcome {} = answer at hSeen ⊢
  cases hSeen with
  | raised => rfl
  | deep h => exact h.elim

end Resolver
end Spreadsheet
