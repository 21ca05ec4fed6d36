import Spreadsheet.Proofs.Evaluation.Congruence
import Spreadsheet.Proofs.Resolver.Advance

/-!
# A resolver that reads its records

The cells that wait for one another are handed down by a resolver that settles them. A resolver that
reads them off its records instead runs the same: it looks for a cycle in the set of the cells in
progress, and takes the path of the cycle from their stack. This holds of functions that compute
from their arguments; what becomes of the records when a function asks for cells itself is another
matter.
-/

set_option autoImplicit false

namespace Spreadsheet

open Evaluation

namespace Resolver

variable {ctx : EvaluationContext} {s t : Session} {w : List Coordinate} {c : Coordinate}
  {text : String}

/-- The mode that goes by the records of the cells in progress. Functions may act on the session
when they are called. -/
def recorded (act : String → List Value → Step Unit) : Mode Session where
  perform x := x
  waits _ c := do return decide (c ∈ Journal.inProgress (← get).journal)
  refuse _ c := do fail (.circular (cyclePath (Journal.stack (← get).journal) c))
  call key arguments := do
    note (.call key arguments)
    act key arguments

/-- The mode whose functions may ask for cells through the session that called them. What becomes of
such a request is nothing to the function. The number bounds how deep they nest. -/
def reentrant (ctx : EvaluationContext) (asked : String → List Value → List Coordinate) :
    Nat → Mode Session
  | 0 => recorded fun _ _ => pure ()
  | depth + 1 => recorded fun key arguments =>
      (asked key arguments).forM fun c => do
        let _ ← attempt ((reentrant ctx asked depth).resolveCell ctx c)

/-- The resolver that goes by its records. -/
def resolveRecorded (ctx : EvaluationContext) (depth : Nat) (c : Coordinate) :
    Step (Option Cell) :=
  (recorded fun _ _ => pure ()).resolve ctx depth [] c

/-- The records are sound and tell which cells wait. -/
structure Recorded (ctx : EvaluationContext) (w : List Coordinate) (s : Session) : Prop where
  standing : Standing w s
  sound : Journal.IsSound ctx s.journal

theorem Recorded.mem_inProgress (h : Recorded ctx w s) :
    c ∈ Journal.inProgress s.journal ↔ c ∈ w := by
  rw [h.sound.mem_inProgress, h.standing.stack]

theorem Recorded.advances {U V : Coordinate → Prop} (h : Recorded ctx w s)
    (hAdvances : Advances ctx U V w s t) : Recorded ctx w t :=
  ⟨hAdvances.standing, hAdvances.legal.isSound_last h.sound⟩

theorem Recorded.start (h : Recorded ctx w s) (hc : Fresh s w c)
    (hText : formulaOf (ctx.grid.get? c) = some text) :
    Recorded ctx (c :: w) ((s.noted (.lookup c)).noted (.start c)) := by
  have hLookup := h.advances (h.standing.advances_lookup (U := fun _ => True)
    (V := fun _ => True) hc trivial)
  have hStart : Journal.MayStart ctx (fun _ => True) (fun _ => True) c
      (s.noted (.lookup c)).journal :=
    { asked := trivial
      isOpen := hLookup.standing.isOpen ⟨hc.unsettled, hc.idle⟩
      formula := ⟨text, hText⟩
      ready := .inl trivial
      waiting := fun _ _ => trivial }
  exact ⟨hLookup.standing.start hc.unsettled, hLookup.sound.note (m := .start c) hStart⟩

theorem resolve_keeps_recorded (d : Nat) (w : List Coordinate) (c : Coordinate) :
    Leads (keeping (Recorded ctx w)) (resolve ctx d w c) :=
  (resolve_advancing (cover_all ctx) d trivial).mono fun _ _ _ hAdvancing hs =>
    hs.advances (hAdvancing hs.standing (fun _ _ => trivial) fun _ => False.elim)

theorem keeping_recorded_evaluates : Evaluates ctx (keeping (Recorded ctx w)) where
  composes := keeping_composes
  own := fun _ _ hs => hs
  parsing := fun _ hs => hs
  call := fun _ key arguments hs =>
    ⟨hs.standing.call key arguments, hs.sound.note (m := .call key arguments)
      (U := fun _ => True) (V := fun _ => True) trivial⟩

theorem compute_eq_of_body {settle settle' : Coordinate → Step (Option Cell)}
    (h : (do (← treeOf text none).evaluate (surroundings ctx settle') : Step Value)
        (s.noted (.start c)) =
      (do (← treeOf text none).evaluate (surroundings ctx settle) : Step Value)
        (s.noted (.start c))) :
    compute ctx settle' c text none s = compute ctx settle c text none s := by
  obtain ⟨r, t, hRun⟩ := exists_ended
    (do (← treeOf text none).evaluate (surroundings ctx settle)) (s.noted (.start c))
  rw [compute_run hRun, compute_run (h.trans hRun)]

theorem recorded_runsAt (act : String → List Value → Step Unit) : (recorded act).RunsAt id :=
  ⟨fun h => h⟩

theorem Recorded.waits (h : Recorded ctx w s) (w' : List Coordinate) :
    (recorded fun _ _ => pure ()).waits w' c s = .ok (decide (c ∈ w)) s := by
  have hMem : decide (c ∈ Journal.inProgress s.journal) = decide (c ∈ w) :=
    decide_eq_decide.mpr h.mem_inProgress
  rw [← hMem]
  rfl

theorem Recorded.refuse (h : Recorded ctx w s) (w' : List Coordinate) :
    (recorded fun _ _ => pure ()).refuse w' c s = plain.refuse w c s := by
  rw [← h.standing.stack]
  rfl

/-- The records tell the same cells to wait that were handed down. -/
theorem settle_recorded (h : Recorded ctx w s) (w' : List Coordinate)
    {next next' : String → Step Cell}
    (hNext : ∀ text, Fresh s w c → formulaOf (ctx.grid.get? c) = some text →
      next' text (s.noted (.lookup c)) = next text (s.noted (.lookup c))) :
    (recorded fun _ _ => pure ()).settle ctx w' c next' s = plain.settle ctx w c next s := by
  have hRuns := recorded_runsAt fun _ _ => pure ()
  cases hSettled : s.settled[c]? with
  | some cell =>
    exact (hRuns.settle_of_settled hSettled).trans (plain_runsAt.settle_of_settled hSettled).symm
  | none =>
    by_cases hc : c ∈ w
    · have hWaits := h.waits (c := c) w'
      rw [decide_eq_true hc] at hWaits
      calc (recorded fun _ _ => pure ()).settle ctx w' c next' s
        _ = (recorded fun _ _ => pure ()).refuse w' c s := hRuns.settle_of_waits hSettled hWaits
        _ = plain.refuse w c s := h.refuse w'
        _ = plain.settle ctx w c next s :=
            (plain_runsAt.settle_of_waits hSettled (plain_waits hc)).symm
    have hWaits := h.waits (c := c) w'
    rw [decide_eq_false hc] at hWaits
    cases hText : formulaOf (ctx.grid.get? c) with
    | none =>
      exact (hRuns.settle_literal hSettled hWaits hText).trans
        (plain_runsAt.settle_literal hSettled (plain_waits_not hc) hText).symm
    | some text =>
      have hNew : c ∉ s.settled := by simp [Std.HashMap.mem_iff_isSome_getElem?, hSettled]
      obtain ⟨r, t, hRun⟩ := exists_ended (next text) (s.noted (.lookup c))
      exact (hRuns.settle_formula hRuns hSettled hWaits hText
          ((hNext text ⟨hNew, hc⟩ hText).trans hRun)).trans
        (plain_runsAt.settle_formula plain_runsAt hSettled (plain_waits_not hc) hText hRun).symm

/-- Reading the waiting cells off sound records makes no difference. -/
theorem resolve_recorded_eq (d : Nat) (w' : List Coordinate) (h : Recorded ctx w s) :
    (recorded fun _ _ => pure ()).resolve ctx d w' c s = resolve ctx d w c s := by
  induction d generalizing w w' c s with
  | zero => exact settle_recorded h w' fun _ _ _ => rfl
  | succ d ih =>
    refine settle_recorded h w' fun text hFresh hText => ?_
    refine compute_eq_of_body ?_
    rw [treeOf_none]
    cases Recursion.tree text with
    | error e => rfl
    | ok f =>
      simp only [lift_ok, pure_bind]
      -- while the formula runs the cell is on the stack, as it is among the waiting cells
      exact f.evaluate_congr
        ⟨keeping_recorded_evaluates.carries fun z _ => resolve_keeps_recorded d (c :: w) z,
          fun z _ u hu => ih (c :: w') hu⟩
        _ (h.start hFresh hText)

theorem resolveRecorded_eq (d : Nat) (h : Recorded ctx w s) :
    resolveRecorded ctx d c s = resolve ctx d w c s := resolve_recorded_eq d [] h

end Resolver
end Spreadsheet
