import Spreadsheet.Proofs.Resolver.Preparation

/-!
# Tracking the resolver

What a passage has to say about the single steps of resolving so that it holds of whole runs. There
is one clause for each way in which the request for a cell goes on, so that a later statement about
runs is a check of these clauses and no induction of its own.
-/

set_option autoImplicit false

namespace Spreadsheet

open Evaluation

namespace Resolver

variable {ctx : EvaluationContext} {w : List Coordinate} {c : Coordinate} {text : String}

theorem tree_error {e : Failure} (h : Recursion.tree text = .error e) :
    ∃ fault, e = .formula (.parsing fault) := by
  unfold Recursion.tree at h
  split at h
  · cases h
  · cases h
    exact ⟨_, rfl⟩

/-! ## Failures of cells -/

/-- A formula cell fails with a failure of its formula that it cannot record, or for want of an
address. -/
theorem settledCell_error {v : Except Failure Value} {e : Failure}
    (h : settledCell c text v = .error e) :
    v = .error e ∧ ¬ Recursion.Recordable e ∨ c.toAddress = .error e := by
  cases v with
  | ok a => cases h
  | error e' =>
    by_cases hRecordable : Recursion.Recordable e'
    · obtain ⟨fault, rfl, hCircular⟩ := hRecordable
      simp only [settledCell, hCircular, Bool.false_eq_true, if_false] at h
      cases hAddress : c.toAddress with
      | ok address =>
        rw [hAddress] at h
        cases h
      | error failure =>
        rw [hAddress] at h
        cases h
        exact .inr rfl
    · rw [Recursion.settledCell_of_not_recordable hRecordable] at h
      cases h
      exact .inl ⟨rfl, hRecordable⟩

/-- A formula cell that settles holds the value of its formula, or the message of the fault that its
formula ends in. -/
theorem settledCell_ok {v : Except Failure Value} {cell : Cell}
    (h : settledCell c text v = .ok cell) :
    (∃ a, v = .ok a ∧ cell = { value := a, formula := some text }) ∨
      ∃ fault, v = .error (.formula fault) ∧
        cell = { error := some fault.message, formula := some text } := by
  cases v with
  | ok a =>
    cases h
    exact .inl ⟨a, rfl, rfl⟩
  | error e =>
    cases e with
    | numeric fault => cases h
    | tooDeep => cases h
    | formula fault =>
      simp only [settledCell] at h
      split at h
      · cases h
      · split at h <;> cases h
        exact .inr ⟨fault, rfl, rfl⟩

/-! ## Formulas -/

/-- A passage that formulas make by themselves. -/
structure Evaluates (ctx : EvaluationContext) (R : Passage Session) : Prop where
  composes : Composes R
  own : ∀ {e}, Formula.OwnFailure ctx.functions e → ∀ s, R s (some e) s
  parsing : ∀ {fault} s, R s (some (.formula (.parsing fault))) s
  call : ∀ s key arguments, R s none (s.noted (.call key arguments))

section Evaluates

variable {R : Passage Session} {settle : Coordinate → Step (Option Cell)}

theorem Evaluates.carries (h : Evaluates ctx R) {asked : Coordinate → Prop}
    (hSettle : ∀ z, asked z → Leads R (settle z)) :
    Formula.Carries R asked (surroundings ctx settle) where
  composes := h.composes
  own _ he := h.own he
  noteCall key arguments s := h.call s key arguments
  settle := hSettle

theorem Evaluates.formula (h : Evaluates ctx R) {f : Formula}
    (hSettle : ∀ z, f.Asks ctx.rangeLimit z → Leads R (settle z)) :
    Leads R (f.evaluate (surroundings ctx settle)) :=
  Formula.evaluate_leads f (h.carries hSettle)

theorem Evaluates.ofText (h : Evaluates ctx R) {tree : Option Formula}
    (hText : formulaOf (ctx.grid.get? c) = some text)
    (hTree : treeOf text tree = lift (Recursion.tree text))
    (hSettle : ∀ z, Refers ctx c z → Leads R (settle z)) :
    Leads R (do (← treeOf text tree).evaluate (surroundings ctx settle)) := by
  rw [hTree]
  cases hParse : Recursion.tree text with
  | error e =>
    obtain ⟨fault, rfl⟩ := tree_error hParse
    exact leads_throw h.parsing
  | ok f => exact h.formula fun z hz => hSettle z ⟨text, f, hText, hParse, hz⟩

end Evaluates

/-! ## Requests for cells -/

/-- The request for a cell goes on to the grid: the cell is neither settled nor waiting. -/
structure Fresh (s : Session) (w : List Coordinate) (c : Coordinate) : Prop where
  unsettled : c ∉ s.settled
  idle : c ∉ w

/-- Passages for the cells that wait, over requests of which `P` holds and failures of which `F` is
known. In the clause for formulas the run of the formula counts as a passage once `P` holds of the
cells that the formula refers to. -/
structure Tracks (ctx : EvaluationContext) (P : List Coordinate → Coordinate → Prop)
    (F : Coordinate → Failure → Prop) (R : List Coordinate → Passage Session) : Prop where
  evaluates : ∀ w, Evaluates ctx (R w)
  circular : ∀ {w c} s, P w c → c ∈ w → R w s (some (.formula (.circular (cyclePath w c)))) s
  literal : ∀ {w c s}, P w c → Fresh s w c → formulaOf (ctx.grid.get? c) = none →
    R w s none ((s.noted (.lookup c)).answered ctx.memoize c (ctx.grid.get? c))
  tooDeep : ∀ {w c s text}, P w c → Fresh s w c → formulaOf (ctx.grid.get? c) = some text →
    R w s (some .tooDeep) (s.noted (.lookup c))
  formula : ∀ {w c s t text} {r : Except Failure Value}, P w c → Fresh s w c →
    formulaOf (ctx.grid.get? c) = some text →
    ((∀ z, Refers ctx c z → P (c :: w) z) →
      Ends (R (c :: w)) ((s.noted (.lookup c)).noted (.start c)) (ended r t)) →
    (∀ e, settledCell c text r = .error e → F c e) →
    Ends (R w) s ((t.noted (.finish c)).computed ctx.memoize c (settledCell c text r))

/-- What holds of the single steps of resolving holds of whole runs. -/
theorem Tracks.resolve {P : List Coordinate → Coordinate → Prop} {F : Coordinate → Failure → Prop}
    {R : List Coordinate → Passage Session} (h : Tracks ctx P F R)
    (hFails : ∀ d w c, P w c → FailsOnly (F c) (resolve ctx d w c)) (d : Nat) (hP : P w c) :
    Leads (R w) (resolve ctx d w c) := by
  induction d using Nat.strong_induction_on generalizing w c with
  | _ d ih =>
    intro s
    cases hSettled : s.settled[c]? with
    | some cell =>
      rw [resolve_of_settled hSettled]
      exact (h.evaluates w).composes.refl s
    | none =>
      have hNew : c ∉ s.settled := by simp [Std.HashMap.mem_iff_isSome_getElem?, hSettled]
      by_cases hc : c ∈ w
      · rw [resolve_of_mem hSettled hc]
        exact h.circular s hP hc
      cases hText : formulaOf (ctx.grid.get? c) with
      | none =>
        rw [resolve_literal hSettled hc hText]
        exact h.literal hP ⟨hNew, hc⟩ hText
      | some text =>
        cases d with
        | zero =>
          rw [resolve_zero hSettled hc hText]
          exact h.tooDeep hP ⟨hNew, hc⟩ hText
        | succ d =>
          obtain ⟨r, t, hBody⟩ := exists_ended
            (do
              let f ← treeOf text none
              f.evaluate (surroundings ctx (Resolver.resolve ctx d (c :: w))))
            ((s.noted (.lookup c)).noted (.start c))
          have hRun := resolve_succ hSettled hc hText (compute_run hBody)
          rw [hRun]
          refine h.formula hP ⟨hNew, hc⟩ hText (fun hDescend => ?_) fun e he => ?_
          · rw [← hBody]
            exact (h.evaluates (c :: w)).ofText hText (treeOf_none text)
              (fun z hz => ih d d.lt_succ_self (hDescend z hz)) _
          · exact hFails (d + 1) w c hP s e _ (by rw [hRun, he]; rfl)

end Resolver
end Spreadsheet
