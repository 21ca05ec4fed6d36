import Spreadsheet.Proofs.Resolver.SettledSheet

/-!
# What cells settle to

A cell settles to what some session answers to a request for it, and no session answers otherwise.
Where all references of a formula settle without an error, every session answers a request for the
formula with what plain recursion makes of it.
-/

set_option autoImplicit false

namespace Spreadsheet

open Evaluation

theorem errorOf_of_reading {cell : Option Cell} {v : Value} (h : reading cell = some v) :
    errorOf cell = none := by
  unfold reading at h
  split at h
  · cases h
  · assumption

namespace Resolver

variable {ctx : EvaluationContext} {s t : Session} {c z : Coordinate} {cell : Option Cell}
  {v : Value} {f : Formula} {roots : List Coordinate}

def SettlesTo (ctx : EvaluationContext) (c : Coordinate) (cell : Option Cell) : Prop :=
  ∃ before, (evaluateCell ctx c).outcome (after ctx before) = .ok cell

/-- The cell settles without an error, and this is its value; an absent one has none. -/
def Shows (ctx : EvaluationContext) (c : Coordinate) (v : Value) : Prop :=
  ∃ cell, SettlesTo ctx c cell ∧ reading cell = some v

/-- The cell settles to one with this error. -/
def Errs (ctx : EvaluationContext) (c : Coordinate) (cause : String) : Prop :=
  ∃ cell, SettlesTo ctx c (some cell) ∧ cell.error = some cause

theorem SettlesTo.settleWithin (h : SettlesTo ctx c cell) :
    Recursion.settleWithin ctx (depthOf ctx) [] c = .ok cell := by
  obtain ⟨before, hOutcome⟩ := h
  obtain ⟨t, hRun⟩ := exists_of_outcome_ok hOutcome
  exact settleWithin_of_evaluateCell (after_faithful ctx before) hRun

theorem SettlesTo.settle (h : SettlesTo ctx c cell) : Recursion.settle ctx [] c = .ok cell :=
  Recursion.settle_of_settlesWithin h.settleWithin

theorem SettlesTo.unique {other : Option Cell} (h : SettlesTo ctx c cell)
    (hOther : SettlesTo ctx c other) : cell = other := by
  have hSame := h.settle
  rw [hOther.settle] at hSame
  exact (Except.ok.inj hSame).symm

theorem Shows.cleanWithin (h : Shows ctx c v) : Recursion.CleanWithin ctx (depthOf ctx) c := by
  obtain ⟨cell, hSettles, hReading⟩ := h
  exact ⟨cell, hSettles.settleWithin, errorOf_of_reading hReading⟩

/-! ## Formulas over clean cells -/

/-- A formula whose references are kept is evaluated from the memory alone. -/
theorem evaluate_from_memory (ht : t.Faithful ctx)
    (hKept : ∀ z, f.Asks ctx.rangeLimit z → z ∈ t.settled) :
    (f.evaluate (surroundings ctx (resolveCell ctx))).outcome t =
      Recursion.value ctx (Recursion.settle ctx []) f := by
  have hFollows : Follows (·.settled = t.settled) (fun _ => False) (fun _ => False)
      (Recursion.value ctx (Recursion.settle ctx []) f)
      (f.evaluate (surroundings ctx (resolveCell ctx))) := by
    refine Formula.evaluate_follows f (Recursion.agree_of_follows rfl rfl ?_ ?_)
    · exact fun key vs _ u hu => ⟨u.noted (.call key vs), hu, .inl rfl⟩
    · intro z hz _ u hu
      obtain ⟨cell, hCell⟩ : ∃ cell, t.settled[z]? = some cell :=
        ⟨_, Std.HashMap.getElem?_eq_some_getElem (hKept z hz)⟩
      rw [(ht z cell hCell).2]
      rw [← hu] at hCell
      exact ⟨u, hu, .inl (resolve_of_settled hCell)⟩
  obtain ⟨u, -, hRun | ⟨_, hSlip, -⟩⟩ := hFollows (fun _ _ => not_false) t rfl
  · exact outcome_of_ended hRun
  · exact hSlip.elim

theorem outcome_reportDepth {α : Type} {x : Step α} {r : Except Failure α}
    {address : Except Failure (Option String)} (h : x.outcome s = r)
    (hr : r ≠ .error .tooDeep) :
    (reportDepth address x).outcome s = r := by
  obtain ⟨r', t, hRun⟩ := exists_ended x s
  obtain rfl : r' = r := (outcome_of_ended hRun).symm.trans h
  exact outcome_of_ended (reportDepth_of_ended address hRun hr)

/-- Every session answers for a formula over clean cells. With the memory on, preparation keeps
them all; with it off, none of them is too deep. -/
theorem evaluate_of_clean (hs : s.Faithful ctx)
    (hReferences : f.references ctx.rangeLimit = .ok roots)
    (hClean : ∀ z ∈ roots, Recursion.CleanWithin ctx (depthOf ctx) z) :
    (evaluate ctx f).outcome s = Recursion.value ctx (Recursion.settle ctx []) f := by
  have hAsks : ∀ z, f.Asks ctx.rangeLimit z → z ∈ roots := fun z hz =>
    (f.mem_references hReferences).mpr hz
  rw [evaluate_eq, hReferences, lift_ok, pure_bind]
  cases hMemoize : ctx.memoize with
  | true =>
    obtain ⟨t, hPrepare, ht, hKept⟩ := prepareAll_settles hMemoize hs
      (fun z hz y e hReach => not_refused_of_clean ((hClean z hz).reaches hReach))
      (fun z hz => (hClean z hz).not_reachesCycle)
    rw [outcome, bind_of_ok hPrepare]
    have hMemory := evaluate_from_memory ht fun z hz => hKept z (hAsks z hz)
    exact outcome_reportDepth hMemory (value_ne_tooDeep f)
  | false =>
    have hSame : Recursion.value ctx (Recursion.settle ctx []) f =
        Recursion.value ctx (Recursion.settleWithin ctx ctx.nestingLimit []) f := by
      apply Recursion.value_congr fun _ => False
      · intro z hz _
        obtain ⟨cell, hCell, -⟩ := hClean z (hAsks z hz)
        rw [depthOf_off hMemoize] at hCell
        rw [hCell, Recursion.settle_of_settlesWithin hCell]
      · exact fun _ _ => not_false
    obtain ⟨t, -, hRun | ⟨_, ⟨hShort, -⟩, -⟩⟩ :=
      evaluate_follows_within hMemoize ctx.nestingLimit f (fun _ _ => not_false) s hs
    · rw [outcome, bind_of_ok (prepareAll_off hMemoize roots s)]
      rw [← hSame] at hRun
      exact outcome_reportDepth (outcome_of_ended hRun) (value_ne_tooDeep f)
    · exact hShort.elim

end Resolver
end Spreadsheet
