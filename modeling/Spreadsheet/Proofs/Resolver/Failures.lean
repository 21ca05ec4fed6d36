import Spreadsheet.Proofs.Resolver.Faults
import Spreadsheet.Proofs.Resolver.Termination

/-!
# Failures by session

Whatever a session remembers and whatever the functions report, a request for a cell ends only in
failures that no cell records: all others are caught where the cell is computed. A formula has the
failures of its own besides.
-/

set_option autoImplicit false

namespace Spreadsheet

open Evaluation

namespace Evaluation

variable {State α β : Type} {Q : Failure → Prop}

theorem FailsOnly.mono {Q' : Failure → Prop} {x : Evaluation State α} (h : FailsOnly Q x)
    (hle : ∀ e, Q e → Q' e) : FailsOnly Q' x :=
  fun s e t hRun => hle e (h s e t hRun)

theorem FailsOnly.map {x : Evaluation State α} (h : FailsOnly Q x) (f : α → β) :
    FailsOnly Q (f <$> x) := by
  rw [map_eq_pure_bind]
  exact h.bind fun a _ => failsOnly_pure (f a)

theorem FailsOnly.foldlM {step : α → β → Evaluation State α} (h : ∀ a b, FailsOnly Q (step a b))
    (bs : List β) (a : α) : FailsOnly Q (bs.foldlM step a) := by
  induction bs generalizing a with
  | nil => exact failsOnly_pure a
  | cons b bs ih =>
    rw [List.foldlM_cons]
    exact (h a b).bind fun a _ => ih a

end Evaluation

namespace Resolver

variable {ctx : EvaluationContext} {s t : Session} {w : List Coordinate} {c : Coordinate}
  {text : String} {d : Nat} {e : Failure} {f : Formula}

/-! ## The failures of cells -/

/-- The failures that a request for a cell may end in, whatever the functions report. -/
inductive CellFailure : Failure → Prop
  | numeric (fault : NumericFault) : CellFailure (.numeric fault)
  | tooDeep : CellFailure .tooDeep
  | circular (path : List Coordinate) : CellFailure (.formula (.circular path))
  | outsideGrid (c : Coordinate) : CellFailure (.formula (.outsideGrid c))
  | nestedTooDeeply (address : Option String) :
      CellFailure (.formula (.nestedTooDeeply address))

theorem cellFailure_of_not_recordable (h : ¬ Recursion.Recordable e) : CellFailure e := by
  cases e with
  | numeric fault => exact .numeric fault
  | tooDeep => exact .tooDeep
  | formula fault =>
    cases fault with
    | circular path => exact .circular path
    | _ => exact absurd ⟨_, rfl, rfl⟩ h

theorem cellFailure_of_toAddress (h : c.toAddress = .error e) : CellFailure e := by
  rcases Coordinate.toAddress_error h with ⟨fault, rfl⟩ | ⟨-, rfl⟩
  · exact .numeric fault
  · exact .outsideGrid c

theorem cellFailure_of_depth (c : Coordinate) :
    CellFailure (depthFailure (some <$> c.toAddress)) := by
  rcases depthFailure_cases c with hNested | hAddress
  · rw [hNested]
    exact .nestedTooDeeply _
  · exact cellFailure_of_toAddress hAddress

theorem cellFailure_of_settledCell {v : Except Failure Value}
    (h : settledCell c text v = .error e) : CellFailure e := by
  rcases settledCell_error h with ⟨-, hNot⟩ | hAddress
  · exact cellFailure_of_not_recordable hNot
  · exact cellFailure_of_toAddress hAddress

theorem cellFailure_of_ne_formula (h : ∀ fault, e ≠ .formula fault) : CellFailure e := by
  cases e with
  | numeric fault => exact .numeric fault
  | tooDeep => exact .tooDeep
  | formula fault => exact absurd rfl (h fault)

/-- Whatever a formula fails with is caught where its cell is computed. -/
theorem compute_cellFailure {settle : Coordinate → Step (Option Cell)} {tree : Option Formula} :
    FailsOnly CellFailure (compute ctx settle c text tree) := by
  intro s e t hRun
  obtain ⟨v, u, hBody⟩ := exists_ended
    (do (← treeOf text tree).evaluate (surroundings ctx settle)) (s.noted (.start c))
  rw [compute_run hBody] at hRun
  exact cellFailure_of_settledCell (eq_of_ended_error hRun.symm).1

theorem resolve_cellFailure : FailsOnly CellFailure (resolve ctx d w c) := by
  intro s e t hRun
  cases fails_of_resolve hRun with
  | circular hw => exact .circular _
  | tooDeep hw hText => exact .tooDeep
  | cell hw hText hBody hCell => exact cellFailure_of_settledCell hCell

theorem prepareFormula_cellFailure
    {prepare : List Coordinate → Coordinate → Step (List Coordinate)}
    (h : ∀ met z, FailsOnly CellFailure (prepare met z)) (met : List Coordinate) :
    FailsOnly CellFailure (prepareFormula ctx prepare met c text) := by
  rw [prepareFormula_eq]
  simp only [referencesOf_parse]
  refine (failsOnly_lift fun e he => cellFailure_of_ne_formula ?_).bind fun cs _ => ?_
  · rintro fault rfl
    exact textReferences_ne_formula text fault he
  refine (FailsOnly.foldlM h cs _).bind fun met' _ => ?_
  refine (failsOnly_of_steady fun s => ⟨_, _, areSettled_run cs s⟩).bind fun all _ => ?_
  cases all with
  | false => exact failsOnly_pure met'
  | true =>
    exact compute_cellFailure.bind fun cell _ =>
      (failsOnly_of_steady fun s => ⟨(), _, rfl⟩).bind fun _ _ => failsOnly_pure met'

theorem prepare_cellFailure (met : List Coordinate) (c : Coordinate) :
    FailsOnly CellFailure (prepare ctx d met c) := by
  induction d using Nat.strong_induction_on generalizing met c with
  | _ d ih =>
    rw [prepare_eq]
    refine (failsOnly_of_steady fun s => ⟨s, s, rfl⟩).bind fun s _ => ?_
    split
    · exact failsOnly_pure met
    · refine (failsOnly_of_steady fun s => ⟨_, _, lookup_run c s⟩).bind fun found _ => ?_
      split
      · exact (failsOnly_of_steady fun s => ⟨(), _, rfl⟩).bind fun _ _ => failsOnly_pure met
      · split
        · exact failsOnly_pure met
        · exact prepareFormula_cellFailure (ih _ (Nat.lt_succ_self _)) met

theorem prepareAll_cellFailure (roots : List Coordinate) :
    FailsOnly CellFailure (prepareAll ctx roots) := by
  rw [prepareAll_eq]
  cases ctx.memoize with
  | false => exact failsOnly_pure ()
  | true =>
    exact (FailsOnly.foldlM (fun met z => prepare_cellFailure met z) roots []).bind
      fun _ _ => failsOnly_pure ()

theorem reportDepth_failsOnly {α : Type} {Q : Failure → Prop}
    {address : Except Failure (Option String)} {x : Step α} (h : FailsOnly Q x)
    (hQ : Q (depthFailure address)) :
    FailsOnly Q (reportDepth address x) := by
  intro s e t hRun
  obtain ⟨a, u, hInner⟩ := exists_ended x s
  rw [reportDepth_run hInner] at hRun
  rcases reported_eq_error (eq_of_ended_error hRun.symm).1 with rfl | ⟨-, rfl⟩
  · exact h s e u hInner
  · exact hQ

/-! ## The failures of requests -/

theorem evaluateCell_cellFailure (c : Coordinate) : FailsOnly CellFailure (evaluateCell ctx c) :=
  (prepareAll_cellFailure [c]).bind fun _ _ =>
    reportDepth_failsOnly resolve_cellFailure (cellFailure_of_depth c)

theorem evaluateEntry_cellFailure (entry : Coordinate × Cell) :
    FailsOnly CellFailure (evaluateEntry ctx entry) := fun _ _ _ hRun =>
  (evaluateCell_cellFailure entry.1).outcome (settledEntry_error (evaluateEntry_error hRun).1).1

theorem evaluateGrid_cellFailure : FailsOnly CellFailure (evaluateGrid ctx) := by
  unfold evaluateGrid
  induction ctx.grid.entries with
  | nil => exact failsOnly_pure []
  | cons entry rest ih =>
    rw [evaluateEntries]
    exact (evaluateEntry_cellFailure entry).bind fun _ _ => ih.bind fun _ _ => failsOnly_pure _

/-- The failures of requests: those of cells, and for formulas those of their own. -/
def RequestFailure (ctx : EvaluationContext) (e : Failure) : Prop :=
  CellFailure e ∨ Formula.OwnFailure ctx.functions e

theorem evaluate_requestFailure (f : Formula) :
    FailsOnly (RequestFailure ctx) (evaluate ctx f) := by
  have hFormula :
      FailsOnly (RequestFailure ctx) (f.evaluate (surroundings ctx (resolveCell ctx))) :=
    f.evaluate_failsOnly
      { own := fun _ => .inr
        noteCall := fun _ _ _ _ _ hNote => nomatch hNote
        settle := fun _ _ => resolve_cellFailure.mono fun _ => .inl }
  refine (failsOnly_lift fun e he => .inl (cellFailure_of_ne_formula ?_)).bind fun roots _ =>
    ((prepareAll_cellFailure roots).mono fun _ => .inl).bind fun _ _ =>
      reportDepth_failsOnly hFormula (.inl (.nestedTooDeeply none))
  rintro fault rfl
  exact f.references_ne_formula fault he

theorem run_requestFailure (r : Request) : FailsOnly (RequestFailure ctx) (r.run ctx) := by
  cases r with
  | value f => exact (evaluate_requestFailure f).map _
  | cell c => exact ((evaluateCell_cellFailure c).mono fun _ => .inl).map _
  | resolve c => exact (resolve_cellFailure.mono fun _ => .inl).map _
  | pass => exact (evaluateGrid_cellFailure.mono fun _ => .inl).map _

end Resolver
end Spreadsheet
