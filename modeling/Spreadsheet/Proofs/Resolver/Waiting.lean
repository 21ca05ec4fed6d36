import Spreadsheet.Proofs.Resolver.Recursion

/-!
# Waiting cells that do not interfere

A cell that settles by itself settles within some depth, and every cell that it needs settles within
less. So a cell is not disturbed by waiting cells that need more depth than it does, or that do not
settle at all. A waiting cell and a cell that its evaluation asks for stand in this relation, which
makes the settled cell independent of who waits for it; `evaluate_follows_value` is this step for
one formula, against any other way of settling cells.
-/

set_option autoImplicit false

namespace Spreadsheet

open Evaluation Resolver

namespace Recursion

variable {ctx : EvaluationContext} {w : List Coordinate} {c z : Coordinate} {text : String}

/-- The cell settles by itself, within a depth. -/
def SettlesWithin (ctx : EvaluationContext) (d : Nat) (c : Coordinate) : Prop :=
  ∃ cell, settleWithin ctx d [] c = .ok cell

theorem SettlesWithin.mono {d d' : Nat} (h : SettlesWithin ctx d c) (hd : d ≤ d') :
    SettlesWithin ctx d' c := by
  obtain ⟨cell, hCell⟩ := h
  exact ⟨cell, by rw [settleWithin_mono hd (by simp [hCell]), hCell]⟩

theorem settle_of_settlesWithin {d : Nat} {cell : Option Cell}
    (h : settleWithin ctx d [] c = .ok cell) : settle ctx [] c = .ok cell :=
  settle_of_settleWithin h (by simp)

theorem settlesWithin_of_settle {cell : Option Cell} (h : settle ctx [] c = .ok cell) :
    SettlesWithin ctx (room ctx []) c :=
  ⟨cell, h⟩

/-- What a cell needs settles within less depth than the cell. -/
theorem settlesWithin_of_waiting {d : Nat} {cell : Option Cell}
    (h : settleWithin ctx d w z = .ok cell) : settleWithin ctx d [] z = .ok cell := by
  rw [settleWithin_drop (List.nil_subset w) (by simp [h]), h]

/-- Cells that wait do not disturb a cell that settles within less depth than they do. -/
theorem settleWithin_of_fresh {d d' : Nat} {cell : Option Cell} (hd : d ≤ d')
    (h : settleWithin ctx d [] c = .ok cell) (hw : ∀ y ∈ w, ¬ SettlesWithin ctx d y) :
    settleWithin ctx d' w c = .ok cell := by
  induction d using Nat.strong_induction_on generalizing d' w c cell with
  | _ d ih =>
    have hc : c ∉ w := fun hc => hw c hc ⟨cell, h⟩
    cases hText : formulaOf (ctx.grid.get? c) with
    | none =>
      rw [settleWithin_literal d (by simp) hText] at h
      rw [settleWithin_literal d' hc hText, h]
    | some text =>
      cases d with
      | zero =>
        rw [settleWithin_zero (by simp) hText] at h
        cases h
      | succ e =>
        by_cases hEarlier : SettlesWithin ctx e c
        · -- the least depth decides: pass to it
          obtain ⟨cell', hCell'⟩ := hEarlier
          have hSame : settleWithin ctx (e + 1) [] c = .ok cell' := by
            rw [settleWithin_mono e.le_succ (by simp [hCell']), hCell']
          rw [h] at hSame
          cases hSame
          exact ih e e.lt_succ_self (by omega) hCell' fun y hy hYes => hw y hy (hYes.mono e.le_succ)
        · obtain ⟨e', rfl⟩ : ∃ k, d' = k + 1 := ⟨d' - 1, by omega⟩
          rw [settleWithin_succ e (by simp) hText] at h
          rw [settleWithin_succ e' hc hText]
          rw [← h]
          congr 1
          apply textValue_congr fun e => ¬ Recordable e
          · intro f _ z hz hOk
            cases hCell : settleWithin ctx e [c] z with
            | error failure =>
              exact absurd (settleWithin_error_of_isAddressable hz.isAddressable hCell)
                (hOk failure hCell)
            | ok cell' =>
              refine ih e e.lt_succ_self (by omega) (settlesWithin_of_waiting hCell) ?_
              intro y hy
              rcases List.mem_cons.mp hy with rfl | hy
              · exact hEarlier
              · exact fun hYes => hw y hy (hYes.mono e.le_succ)
          · intro failure hFailure
            exact not_not.mpr (recordable_of_settledBy h hFailure)

/-- Every waiting cell that settles by itself takes more depth than the cell. -/
def Outlasts (ctx : EvaluationContext) (w : List Coordinate) (c : Coordinate) : Prop :=
  ∀ y ∈ w, ∀ d, SettlesWithin ctx d y → ∃ d' < d, SettlesWithin ctx d' c

theorem outlasts_nil : Outlasts ctx [] c := by simp [Outlasts]

/-- The waiting cells do not disturb a cell that they outlast. -/
theorem Outlasts.settle_eq {cell : Option Cell} (hw : Outlasts ctx w c)
    (h : settle ctx [] c = .ok cell) : settle ctx w c = .ok cell := by
  classical
  have hSome : ∃ d, SettlesWithin ctx d c := ⟨_, settlesWithin_of_settle h⟩
  obtain ⟨cell', hCell'⟩ := Nat.find_spec hSome
  have hSame := settle_of_settlesWithin hCell'
  rw [h] at hSame
  cases hSame
  have hFresh : ∀ y ∈ w, ¬ SettlesWithin ctx (Nat.find hSome) y := by
    intro y hy hYes
    obtain ⟨d, hd, hc⟩ := hw y hy _ hYes
    exact Nat.find_min hSome hd hc
  rw [← settleWithin_eq_settle (le_max_right (Nat.find hSome) (room ctx w))]
  exact settleWithin_of_fresh (le_max_left _ _) hCell' hFresh

/-- A formula cell that settles by itself rests on cells that settle within less depth. -/
theorem exists_least_depth (hText : formulaOf (ctx.grid.get? c) = some text)
    (hSome : ∃ d, SettlesWithin ctx d c) :
    ∃ e cell, settledBy c text (textValue ctx (settleWithin ctx e [c]) text) = .ok cell ∧
      ∀ d, SettlesWithin ctx d c → e < d := by
  classical
  obtain ⟨cell, hCell⟩ := Nat.find_spec hSome
  obtain ⟨e, he, hSettled⟩ := exists_settledBy hText hCell
  refine ⟨e, cell, hSettled, fun d hd => ?_⟩
  have := Nat.find_min' hSome hd
  omega

/-- With a cell its waiting cells outlast what settles within less depth than the cell. -/
theorem Outlasts.cons {e : Nat} (hw : Outlasts ctx w c)
    (hLeast : ∀ d, SettlesWithin ctx d c → e < d) (hz : SettlesWithin ctx e z) :
    Outlasts ctx (c :: w) z := by
  intro y hy d hd
  rcases List.mem_cons.mp hy with rfl | hy
  · exact ⟨e, hLeast d hd, hz⟩
  · obtain ⟨d', hd', hYes⟩ := hw y hy d hd
    exact ⟨e, (hLeast d' hYes).trans hd', hz⟩

/-- A cell that never settles outlasts every cell, and so does whatever waits for it. -/
theorem Outlasts.cons_of_never (hw : Outlasts ctx w c) (hNever : ¬ ∃ d, SettlesWithin ctx d c) :
    Outlasts ctx (c :: w) z := by
  intro y hy d hd
  rcases List.mem_cons.mp hy with rfl | hy
  · exact absurd ⟨d, hd⟩ hNever
  · obtain ⟨d', -, hYes⟩ := hw y hy d hd
    exact absurd ⟨d', hYes⟩ hNever

section Step

variable {State : Type} {I : State → Prop} {slips : Failure → Prop} {env : Surroundings State}
  {f : Formula} {e : Nat} {cell : Option Cell}

/-- The step for a cell that settles, over the cells that settle within less depth. -/
theorem evaluate_follows_value_of_least (hw : Outlasts ctx w c) (hTree : tree text = .ok f)
    (hSettled : settledBy c text (textValue ctx (settleWithin ctx e [c]) text) = .ok cell)
    (hLeast : ∀ d, SettlesWithin ctx d c → e < d)
    (hLimit : env.rangeLimit = ctx.rangeLimit) (hFunctions : env.functions = ctx.functions)
    (hNote : ∀ key arguments,
      Follows I (fun _ => False) slips (.ok ()) (env.noteCall key arguments))
    (hSettle : ∀ z, f.Asks ctx.rangeLimit z → Outlasts ctx (c :: w) z →
      Follows I (fun _ => False) slips (settle ctx (c :: w) z) (env.settle z)) :
    Follows I (fun _ => False) slips (value ctx (settle ctx (c :: w)) f) (f.evaluate env) := by
  rw [textValue, hTree] at hSettled
  have hRecordable : ∀ failure, value ctx (settleWithin ctx e [c]) f = .error failure →
      ¬ ¬ Recordable failure :=
    fun failure hFailure => not_not.mpr (recordable_of_settledBy hSettled hFailure)
  have hEarly : ∀ z cell', settleWithin ctx e [c] z = .ok cell' →
      Outlasts ctx (c :: w) z ∧ settle ctx (c :: w) z = .ok cell' := by
    intro z cell' hz
    have hAlone := settlesWithin_of_waiting hz
    have hAll := hw.cons hLeast ⟨cell', hAlone⟩
    exact ⟨hAll, hAll.settle_eq (settle_of_settlesWithin hAlone)⟩
  have hValue : value ctx (settle ctx (c :: w)) f = value ctx (settleWithin ctx e [c]) f := by
    refine value_congr (fun failure => ¬ Recordable failure) ?_ hRecordable
    intro z hz hOk
    cases hz' : settleWithin ctx e [c] z with
    | ok cell' => exact (hEarly z cell' hz').2
    | error failure =>
      exact absurd (settleWithin_error_of_isAddressable hz.isAddressable hz') (hOk failure hz')
  have hAgree : Formula.Agree I (fun failure => ¬ Recordable failure) slips
      (f.Asks ctx.rangeLimit) (surroundings ctx (settleWithin ctx e [c])) env := by
    refine agree_of_follows hLimit hFunctions (fun key vs => (hNote key vs).mono (by simp)) ?_
    intro z hz
    cases hz' : settleWithin ctx e [c] z with
    | error failure =>
      exact follows_of_aside (settleWithin_error_of_isAddressable hz.isAddressable hz') _
    | ok cell' =>
      obtain ⟨hAll, hEq⟩ := hEarly z cell' hz'
      rw [← hEq]
      exact (hSettle z hz hAll).mono (by simp)
  rw [hValue]
  exact fun _ => Formula.evaluate_follows f hAgree hRecordable

/-- The step from a waiting cell to a cell that its formula asks for, against another way of
settling cells: it need only settle alike the cells that all waiting cells outlast. -/
theorem evaluate_follows_value (hw : Outlasts ctx w c)
    (hText : formulaOf (ctx.grid.get? c) = some text) (hTree : tree text = .ok f)
    (hLimit : env.rangeLimit = ctx.rangeLimit) (hFunctions : env.functions = ctx.functions)
    (hNote : ∀ key arguments,
      Follows I (fun _ => False) slips (.ok ()) (env.noteCall key arguments))
    (hSettle : ∀ z, f.Asks ctx.rangeLimit z → Outlasts ctx (c :: w) z →
      Follows I (fun _ => False) slips (settle ctx (c :: w) z) (env.settle z)) :
    Follows I (fun _ => False) slips (value ctx (settle ctx (c :: w)) f) (f.evaluate env) := by
  by_cases hSome : ∃ d, SettlesWithin ctx d c
  · obtain ⟨e, cell, hSettled, hLeast⟩ := exists_least_depth hText hSome
    exact evaluate_follows_value_of_least hw hTree hSettled hLeast hLimit hFunctions hNote hSettle
  · exact Formula.evaluate_follows f (agree_of_follows hLimit hFunctions hNote
      fun z hz => hSettle z hz (hw.cons_of_never hSome))

end Step

end Recursion
end Spreadsheet
