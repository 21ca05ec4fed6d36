import Spreadsheet.Proofs.Resolver.Advance
import Spreadsheet.Proofs.Resolver.Clean

/-!
# Preparation leaves nothing to nest

With the memory on, the formula of a cell that reaches no cycle is evaluated when all its references
are kept, so no other formula starts before it ends. Only cells above a cycle ever wait.
-/

set_option autoImplicit false

namespace Spreadsheet

open Evaluation

namespace Resolver

variable {ctx : EvaluationContext} {s t : Session} {c : Coordinate}

/-- Where no cell may wait for another one, at most one is in progress. -/
theorem length_stack_le_one {U V : Coordinate → Prop} {j j' : List Moment}
    (h : Journal.Grows (Journal.IsLegal ctx U V) j j') (hNone : ∀ c, ¬ V c)
    (hj : Journal.stack j = []) : (Journal.stack j').length ≤ 1 := by
  induction h with
  | refl => simp [hj]
  | @note m j' _ hm ih =>
    cases m with
    | lookup d => exact ih
    | keep d => exact ih
    | call key arguments => exact ih
    | start d =>
      have hEmpty : Journal.stack j' = [] :=
        List.eq_nil_iff_forall_not_mem.mpr fun x hx => hNone x (hm.waiting x hx)
      simp [hEmpty]
    | finish d =>
      obtain ⟨w, hStack⟩ := List.head?_eq_some_iff.mp hm
      rw [Journal.stack_finish hStack]
      rw [hStack] at ih
      simp at ih
      simp [ih]

/-- Prepared requests only start formulas whose references are kept, apart from those of cells above
a cycle. -/
theorem Request.advances_prepared (hOn : ctx.memoize = true) (hFaithful : s.Faithful ctx)
    (hs : Standing [] s) (r : Request) (hr : ∀ c, r ≠ .resolve c) :
    Advances ctx (r.Touches ctx) (fun x => r.Touches ctx x ∧ ReachesCycle ctx x) [] s
      ((r.run ctx).final s) :=
  r.advances hFaithful hs (fun _ => touches_of_asks) (fun _ _ hx hxy => hx.reaches (.single hxy))
    (fun _ hx hCycle => ⟨hx, hCycle hOn⟩) fun c hc => absurd hc (hr c)

/-- In a session with memory, a request that is prepared starts the formula of a cell that reaches
no cycle only when its references are kept, and none while such a formula is in progress. If the
request reaches no cycle at all, at most one formula is in progress at any moment. -/
theorem prepared_formulas_never_nest (hOn : ctx.memoize = true) (before : List Request)
    (r : Request) (hr : ∀ c, r ≠ .resolve c) :
    (∀ c j, .start c :: j <:+ ((r.run ctx).final (after ctx before)).journal →
      (after ctx before).journal <:+ j →
        (¬ ReachesCycle ctx c → ∀ z, Refers ctx c z → .keep z ∈ j) ∧
          ∀ x ∈ Journal.stack j, ReachesCycle ctx x) ∧
    ((∀ c, r.Touches ctx c → ¬ OnCycle ctx c) →
      ∀ j, j <:+ ((r.run ctx).final (after ctx before)).journal →
        (after ctx before).journal <:+ j → (Journal.stack j).length ≤ 1) := by
  have hs := after_standing ctx before
  have hAdvances := r.advances_prepared hOn (after_faithful ctx before) hs hr
  constructor
  · intro c j hStart hj
    have hLegal := hAdvances.legal.of_suffix hStart hj
    refine ⟨fun hFree => ?_, fun x hx => (hLegal.waiting x hx).2⟩
    exact hLegal.ready.resolve_left fun hCycle => hFree hCycle.2
  · intro hNone j hj hLater
    refine length_stack_le_one (hAdvances.legal.of_le hLater hj) ?_ hs.stack
    rintro x ⟨hx, z, hReach, hCycle⟩
    exact hNone z (hx.reaches hReach) hCycle

theorem one_formula_at_a_time_on_tripleSheet :
    tripleSheet.memoize = true ∧ (∀ c, Request.cell ⟨0, 1⟩ ≠ .resolve c) ∧
      ∀ j, j <:+ (((Request.cell ⟨0, 1⟩).run tripleSheet).final {}).journal →
        (Journal.stack j).length ≤ 1 := by
  have hClean : Recursion.CleanWithin tripleSheet 2 ⟨0, 1⟩ :=
    ⟨some { value := .int 6, formula := some "=A1*3" }, by cbv, rfl⟩
  have hPrepared : ∀ c, Request.cell ⟨0, 1⟩ ≠ .resolve c := by simp
  refine ⟨rfl, hPrepared, fun j hj => ?_⟩
  refine (prepared_formulas_never_nest rfl [] (.cell ⟨0, 1⟩) hPrepared).2 ?_ j hj
    List.nil_suffix
  rintro c ⟨x, rfl, hReach⟩
  exact (hClean.reaches hReach).not_onCycle

end Resolver
end Spreadsheet
