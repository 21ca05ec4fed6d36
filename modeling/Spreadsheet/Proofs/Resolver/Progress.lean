import Spreadsheet.Proofs.Resolver.Records

/-!
# The cells in progress

At every moment of a session the stack and the set of the cells in progress agree, and hold formula
cells that are not kept. A request leaves both as they were, however it ends, and only adds to the
memory. A resolver may therefore look for cycles in these records. A function that asks for cells
itself, through the session that called it, breaks them.
-/

set_option autoImplicit false

namespace Spreadsheet

open Evaluation

namespace Resolver

variable {ctx : EvaluationContext} {s t : Session}

theorem after_sound (ctx : EvaluationContext) (requests : List Request) :
    ∀ j, j <:+ (after ctx requests).journal → Journal.IsSound ctx j := by
  have hAll : ((after ctx requests).Faithful ctx ∧ Standing [] (after ctx requests)) ∧
      ∀ j, j <:+ (after ctx requests).journal → Journal.IsSound ctx j := by
    refine after_induction (P := fun s => (s.Faithful ctx ∧ Standing [] s) ∧
      ∀ j, j <:+ s.journal → Journal.IsSound ctx j)
      ⟨⟨Session.faithful_empty ctx, standing_empty⟩, ?_⟩ (fun r s hs => ?_) requests
    · intro j hj
      rw [List.suffix_nil.mp hj]
      exact Journal.isSound_nil
    · have hAdvances := r.advances_any hs.1.1 hs.1.2
      exact ⟨⟨r.final_faithful hs.1.1, hAdvances.standing⟩, hAdvances.legal.isSound hs.2⟩
  exact hAll.2

/-- The records of the cells in progress are as they were, and the memory holds what it held. -/
structure Restores (ctx : EvaluationContext) (s t : Session) : Prop where
  stack : Journal.stack t.journal = Journal.stack s.journal
  inProgress : Journal.inProgress t.journal = Journal.inProgress s.journal
  settled : ∀ (c : Coordinate) cell, s.settled[c]? = some cell → t.settled[c]? = some cell
  kept : ∀ c, c ∈ t.settled ↔ .keep c ∈ t.journal
  off : ctx.memoize = false → ∀ c, c ∉ t.settled

theorem after_append_singleton (before : List Request) (r : Request) :
    after ctx (before ++ [r]) = (r.run ctx).final (after ctx before) := by
  rw [after, List.foldl_append]
  rfl

/-- Whatever a session was asked and however that ended, its records are sound at every moment, and
the next request restores them. Between requests resolving a cell by these records is the same as
resolving it with the waiting cells handed down. -/
theorem records_sound_and_restored (before : List Request) (r : Request) :
    (∀ j, j <:+ ((r.run ctx).final (after ctx before)).journal → Journal.IsSound ctx j) ∧
      Restores ctx (after ctx before) ((r.run ctx).final (after ctx before)) ∧
      ∀ d c, resolveRecorded ctx d c (after ctx before) =
        resolve ctx d [] c (after ctx before) := by
  have hBefore := after_standing ctx before
  have hAfter := after_standing ctx (before ++ [r])
  have hSoundBefore := after_sound ctx before
  have hSound := after_sound ctx (before ++ [r])
  have hFaithful := after_faithful ctx (before ++ [r])
  have hAdvances := r.advances_any (after_faithful ctx before) hBefore
  rw [after_append_singleton] at hAfter hSound hFaithful
  refine ⟨hSound, ⟨?_, ?_, fun c cell => hAdvances.settled, hAfter.kept, fun hOff c => ?_⟩,
    fun d c => resolveRecorded_eq d ⟨hBefore, hSoundBefore _ List.suffix_rfl⟩⟩
  · rw [hAfter.stack, hBefore.stack]
  · ext c
    rw [(hSound _ List.suffix_rfl).mem_inProgress,
      (hSoundBefore _ List.suffix_rfl).mem_inProgress, hAfter.stack, hBefore.stack]
  · rw [Std.HashMap.mem_iff_isSome_getElem?, hFaithful.settled_eq_none hOff c]
    simp

/-- A cell whose formula fails before it comes to another one, which calls a function. -/
def callbackSheet : EvaluationContext where
  grid := ⟨[(⟨0, 0⟩, { formula := some "=FAIL()+B1" }), (⟨0, 1⟩, { formula := some "=ASK()" })],
    by decide⟩
  functions := ⟨[("fail", fun _ => .error (.raised "worn")), ("ask", fun _ => .ok (.int 1))]⟩

/-- The function of the second cell asks for the first one. -/
def callback : Mode Session :=
  reentrant callbackSheet (fun key _ => if key = "ask" then [⟨0, 0⟩] else []) 1

/-- The journal of a request for the first cell. -/
def callbackJournal : List Moment :=
  ((callback.evaluateCell callbackSheet ⟨0, 0⟩).final {}).journal

theorem stack_callbackJournal : Journal.stack (callbackJournal.drop 3) = [⟨0, 0⟩] := by cbv

theorem callbackJournal_keeps : (callbackJournal.drop 3)[3]? = some (.keep ⟨0, 0⟩) := by cbv

/-- The first cell is kept while the second one is in progress. Then it comes to be in progress
itself, and is kept once more. -/
theorem callback_breaks_records :
    ∃ j, j <:+ ((callback.evaluateCell callbackSheet ⟨0, 0⟩).final {}).journal ∧
      ¬ Journal.IsSound callbackSheet j := by
  refine ⟨callbackJournal.drop 3, List.drop_suffix 3 _, fun hSound => ?_⟩
  have hWaits : ⟨0, 0⟩ ∈ Journal.stack (callbackJournal.drop 3) := by
    rw [stack_callbackJournal]
    exact List.mem_cons_self
  exact hSound.unkept ⟨0, 0⟩ hWaits (List.mem_of_getElem? callbackJournal_keeps)

end Resolver
end Spreadsheet
