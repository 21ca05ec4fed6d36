import Spreadsheet.Proofs.Resolver.Request

/-!
# Orderly contexts

In an orderly context a formula that fails is recorded in its cell, unless it meets a cycle. There
preparation is never refused for the sake of a cell that the evaluation does not need, so every
request of every faithful session ends as plain recursion says.
-/

set_option autoImplicit false

namespace Spreadsheet

open Evaluation Resolver

namespace EvaluationContext

/-- Every address in a formula of the grid has a row that can be read. -/
def IsReadable (ctx : EvaluationContext) : Prop :=
  ∀ c text f, formulaOf (ctx.grid.get? c) = some text → Formula.parse text = .ok f → f.IsReadable

/-- The context in which all cells may wait for one another. -/
def roomy (ctx : EvaluationContext) : EvaluationContext :=
  { ctx with nestingLimit := ctx.grid.size }

def withMemory (ctx : EvaluationContext) (memoize : Bool) : EvaluationContext :=
  { ctx with memoize := memoize }

/-- The context with other cells, or with its cells in another order. -/
def withGrid (ctx : EvaluationContext) (g : Grid) : EvaluationContext := { ctx with grid := g }

/-- No cell ends with a numeric fault when it is evaluated alone. Depth is left aside: all cells may
wait for one another. -/
def HasNoNumericFault (ctx : EvaluationContext) : Prop :=
  ∀ c fault, (evaluateCell ctx.roomy c).outcome {} ≠ .error (.numeric fault)

/-- Failures of the grid's formulas are recorded in their cells, apart from cycles. -/
structure IsOrderly (ctx : EvaluationContext) : Prop where
  readable : ctx.IsReadable
  functions : ctx.functions.ReportsNoCycle
  settle : ∀ c fault, Recursion.settle ctx [] c ≠ .error (.numeric fault)

end EvaluationContext

namespace Resolver

variable {ctx ctx' : EvaluationContext} {s t : Session} {c y : Coordinate} {e : Failure}

/-! ## Orderly contexts -/

theorem exists_entry_of_formula {text : String}
    (hText : formulaOf (ctx.grid.get? c) = some text) :
    ∃ cell, (c, cell) ∈ ctx.grid.entries ∧ cell.formula = some text := by
  obtain ⟨cell, hCell, hFormula⟩ := Option.bind_eq_some_iff.mp hText
  exact ⟨cell, Grid.get?_eq_some_iff.mp hCell, hFormula⟩

/-- Short addresses in the formulas of the entries make a grid readable. -/
theorem isReadable_of_entries
    (h : ∀ entry ∈ ctx.grid.entries, ∀ text, entry.2.formula = some text →
      ∀ f, Formula.parse text = .ok f →
        ∀ a ∈ f.addresses, a.toList.length ≤ Decimal.digitLimit) : ctx.IsReadable := by
  intro c text f hText hParse a ha
  obtain ⟨cell, hEntry, hFormula⟩ := exists_entry_of_formula hText
  exact Coordinate.rowIsReadable_of_length_le (h (c, cell) hEntry text hFormula f hParse a ha)

theorem textReferences_ok {text : String} (h : ctx.IsReadable)
    (hText : formulaOf (ctx.grid.get? c) = some text) :
    ∃ cs, textReferences ctx text = .ok cs := by
  unfold textReferences
  cases hTree : Recursion.tree text with
  | error e => exact ⟨[], rfl⟩
  | ok f => exact (h c text f hText (Recursion.tree_eq_ok.mp hTree)).references_ok

/-- A cell with an address is refused only for a numeric fault of its formula. -/
theorem Refused.exists_numeric (hReadable : ctx.IsReadable)
    (hFunctions : ctx.functions.ReportsNoCycle) (hAddress : y.IsAddressable)
    (h : Refused ctx y e) :
    ∃ fault, e = .numeric fault ∧ Recursion.settle ctx [] y = .error e := by
  cases h with
  | references hText hReferences =>
    obtain ⟨cs, hOk⟩ := textReferences_ok hReadable hText
    rw [hOk] at hReferences
    cases hReferences
  | cell hReferences hSettle =>
    cases hText : formulaOf (ctx.grid.get? y) with
    | none =>
      rw [Recursion.settle_literal (by simp) hText] at hSettle
      cases hSettle
    | some text =>
      have hRecorded := hSettle
      rw [Recursion.settle_formula (by simp) hText] at hRecorded
      obtain ⟨hValue, hNot⟩ := Recursion.settledBy_error_of_isAddressable hAddress hRecorded
      -- nothing settles while `y` waits less than by itself, since `y` never settles
      have hOutlasts : ∀ z, Recursion.Outlasts ctx [y] z := by
        intro z x hx d hd
        rw [List.mem_singleton] at hx
        subst hx
        obtain ⟨cell, hCell⟩ := hd
        rw [Recursion.settle_of_settlesWithin hCell] at hSettle
        cases hSettle
      have hOwn : Formula.OwnFailure ctx.functions e ∨ ∃ fault, e = .formula (.parsing fault) := by
        refine Recursion.textValue_failsOnly
          (Q := fun e =>
            Formula.OwnFailure ctx.functions e ∨ ∃ fault, e = .formula (.parsing fault))
          (fun _ => .inl) (fun fault => .inr ⟨fault, rfl⟩) (fun f hTree z hz e' he' => ?_) hValue
        obtain ⟨cell, hCell⟩ := hReferences z ⟨text, f, hText, hTree, hz⟩
        rw [(hOutlasts z).settle_eq hCell] at he'
        cases he'
      rcases hOwn with hOwn | ⟨fault, rfl⟩
      · cases e with
        | numeric fault => exact ⟨fault, rfl, hSettle⟩
        | tooDeep => exact absurd rfl hOwn.ne_tooDeep
        | formula fault => exact absurd ⟨fault, rfl, hOwn.not_circular hFunctions⟩ hNot
      · exact absurd ⟨_, rfl, rfl⟩ hNot

/-- A request is refused with the failure that the root ends in anyway, or for a numeric fault. -/
theorem Refused.settle_eq_or_numeric (hReadable : ctx.IsReadable)
    (hFunctions : ctx.functions.ReportsNoCycle) (h : Refused ctx y e) (hReach : Reaches ctx c y) :
    Recursion.settle ctx [] c = .error e ∨
      ∃ fault, e = .numeric fault ∧ Recursion.settle ctx [] y = .error e := by
  cases hReach with
  | tail _ hLast => exact .inr (h.exists_numeric hReadable hFunctions hLast.isAddressable)
  | refl =>
    cases h with
    | cell _ hSettle => exact .inl hSettle
    | references hText hReferences =>
      obtain ⟨cs, hOk⟩ := textReferences_ok hReadable hText
      rw [hOk] at hReferences
      cases hReferences

theorem Refused.settle_eq (h : ctx.IsOrderly) (hRefused : Refused ctx y e)
    (hReach : Reaches ctx c y) : Recursion.settle ctx [] c = .error e := by
  rcases hRefused.settle_eq_or_numeric h.readable h.functions hReach with hSettle | ⟨fault, rfl, hy⟩
  · exact hSettle
  · exact absurd hy (h.settle y fault)

theorem roomy_sameCells (ctx : EvaluationContext) : Recursion.SameCells ctx ctx.roomy :=
  ⟨fun _ => rfl, rfl, rfl⟩

theorem withMemory_sameCells (ctx : EvaluationContext) (memoize : Bool) :
    Recursion.SameCells ctx (ctx.withMemory memoize) :=
  ⟨fun _ => rfl, rfl, rfl⟩

/-- Evaluating each cell alone shows whether a context is orderly. -/
theorem isOrderly_of_evaluateCell (hReadable : ctx.IsReadable)
    (hFunctions : ctx.functions.ReportsNoCycle) (hNumeric : ctx.HasNoNumericFault) :
    ctx.IsOrderly where
  readable := hReadable
  functions := hFunctions
  settle c fault hSettle := by
    have hRoomy : ctx.roomy.IsReadable := hReadable
    rw [← (roomy_sameCells ctx).settle_eq] at hSettle
    cases evaluateCell_ending (Session.faithful_empty ctx.roomy) c with
    | settled t _ hRun => exact hNumeric c fault (by rw [outcome_of_ended hRun, hSettle])
    | deep _ _ _ hRoom _ _ => exact absurd hRoom (Recursion.room_le_size []).not_gt
    | refused t e root y _ _ hRoot hReach hRefused hRun =>
      rw [List.mem_singleton] at hRoot
      subst hRoot
      rcases hRefused.settle_eq_or_numeric hRoomy hFunctions hReach with
        hSame | ⟨fault', rfl, -⟩
      · rw [hSettle] at hSame
        cases hSame
        exact hNumeric root fault (outcome_of_error hRun)
      · exact hNumeric root fault' (outcome_of_error hRun)

theorem isOrderly_of_sameCells (hSame : Recursion.SameCells ctx ctx') (h : ctx.IsOrderly) :
    ctx'.IsOrderly where
  readable c text f hText := h.readable c text f (hSame.get? c ▸ hText)
  functions := hSame.functions ▸ h.functions
  settle c fault := by
    rw [hSame.settle_eq]
    exact h.settle c fault

/-! ## Requests in an orderly context -/

/-- A request that is prepared ends as plain recursion says, or gets too deep. -/
theorem Ending.outcome_eq {α : Type} {roots : List Coordinate} {r : Except Failure α}
    {Deep : Failure → Prop} {x : Step α} (h : Ending ctx roots r Deep x s)
    (hRefused : ∀ root ∈ roots, ∀ y e, Reaches ctx root y → Refused ctx y e → r = .error e) :
    x.outcome s = r ∨ ∃ e, Deep e ∧ x.outcome s = .error e := by
  rcases h with ⟨t, -, hRun⟩ | ⟨t, e, -, -, hDeep, hRun⟩ |
    ⟨t, e, root, y, -, -, hRoot, hReach, hy, hRun⟩
  · exact .inl (outcome_of_ended hRun)
  · exact .inr ⟨e, hDeep, outcome_of_error hRun⟩
  · rw [hRefused root hRoot y e hReach hy]
    exact .inl (outcome_of_error hRun)

theorem evaluateCell_outcome (h : ctx.IsOrderly) (hs : s.Faithful ctx) (c : Coordinate) :
    (evaluateCell ctx c).outcome s = Recursion.settle ctx [] c ∨
      Overruns ctx [c] (resolveCell ctx c) s := by
  refine ((evaluateCell_ending hs c).outcome_eq fun root hRoot y e hReach hRefused => ?_).imp_right
    fun ⟨_, ⟨_, hOver⟩, _⟩ => hOver
  rw [List.mem_singleton] at hRoot
  subst hRoot
  exact hRefused.settle_eq h hReach

theorem resolveCell_outcome (hs : s.Faithful ctx) (c : Coordinate) :
    (resolveCell ctx c).outcome s = Recursion.settle ctx [] c ∨
      (resolveCell ctx c).outcome s = .error .tooDeep :=
  ((resolveCell_ending hs c).outcome_eq (by simp)).imp_right fun ⟨_, he, hOutcome⟩ => he ▸ hOutcome

/-- The references of a formula have addresses, so none of them is refused. -/
theorem evaluate_outcome (h : ctx.IsOrderly) (hs : s.Faithful ctx) {f : Formula}
    {roots : List Coordinate} (hReferences : f.references ctx.rangeLimit = .ok roots) :
    (evaluate ctx f).outcome s = Recursion.value ctx (Recursion.settle ctx []) f ∨
      Overruns ctx roots (f.evaluate (surroundings ctx (resolveCell ctx))) s := by
  refine ((evaluate_ending hReferences hs).outcome_eq fun root hRoot y e hReach hRefused => ?_)
    |>.imp_right fun ⟨_, ⟨_, hOver⟩, _⟩ => hOver
  have hAddress : root.IsAddressable := ((f.mem_references hReferences).mp hRoot).isAddressable
  have hy : y.IsAddressable := by
    cases hReach with
    | refl => exact hAddress
    | tail _ hLast => exact hLast.isAddressable
  obtain ⟨fault, rfl, hSettle⟩ := hRefused.exists_numeric h.readable h.functions hy
  exact absurd hSettle (h.settle y fault)

/-- The evaluation of a cell gets too deep in a pass. -/
def DeepAt (ctx : EvaluationContext) (s : Session) (c : Coordinate) : Prop :=
  ∃ t, (c, t) ∈ visits ctx ctx.grid.entries s ∧ Overruns ctx [c] (resolveCell ctx c) t

/-- A request gets too deep; a pass does when one of its cells does. -/
def Request.IsDeep (ctx : EvaluationContext) (s : Session) : Request → Prop
  | value f => ∃ roots, f.references ctx.rangeLimit = .ok roots ∧
      Overruns ctx roots (f.evaluate (surroundings ctx (resolveCell ctx))) s
  | cell c => Overruns ctx [c] (resolveCell ctx c) s
  | resolve c => (resolveCell ctx c).outcome s = .error .tooDeep
  | pass => ∃ c, DeepAt ctx s c

/-- A cell that gets too deep ends in the failure that reports it. -/
theorem Overruns.outcome_evaluateCell (h : Overruns ctx [c] (resolveCell ctx c) s) :
    (evaluateCell ctx c).outcome s = .error (depthFailure (some <$> c.toAddress)) := by
  obtain ⟨t, u, hPrepare, hRun⟩ := h
  have hEnd : evaluateCell ctx c s = .error (depthFailure (some <$> c.toAddress)) u := by
    rw [evaluateCell_eq, bind_of_ok hPrepare]
    exact reportDepth_of_tooDeep _ hRun
  exact outcome_of_error hEnd

theorem not_isDeep_of_circular {p : List Coordinate}
    (h : ((Request.cell c).run ctx).outcome s = .error (.formula (.circular p))) :
    ¬ (Request.cell c).IsDeep ctx s := by
  intro hDeep
  rw [Request.run, outcome_map, Overruns.outcome_evaluateCell hDeep] at h
  exact depthFailure_ne_circular c p (Except.error.inj h)

theorem not_isDeep_of_ok {answer : Answer}
    (h : ((Request.cell c).run ctx).outcome s = .ok answer) : ¬ (Request.cell c).IsDeep ctx s := by
  intro hDeep
  rw [Request.run, outcome_map, Overruns.outcome_evaluateCell hDeep] at h
  cases h

/-- The results of a pass by plain recursion. -/
def plainPass (ctx : EvaluationContext) :
    List (Coordinate × Cell) → Except Failure (List (Coordinate × Cell))
  | [] => .ok []
  | entry :: rest => do
    let settled ← settledEntry entry (Recursion.settle ctx [] entry.1)
    let others ← plainPass ctx rest
    return settled.toList ++ others

/-- What plain recursion answers to a request. -/
def Request.plainAnswer (ctx : EvaluationContext) : Request → Except Failure Answer
  | value f => do
    let _ ← f.references ctx.rangeLimit
    Answer.value <$> Recursion.value ctx (Recursion.settle ctx []) f
  | cell c => Answer.cell <$> Recursion.settle ctx [] c
  | resolve c => Answer.cell <$> Recursion.settle ctx [] c
  | pass => Answer.cells <$> plainPass ctx ctx.grid.entries

theorem evaluateEntries_outcome (h : ctx.IsOrderly) {entries : List (Coordinate × Cell)}
    (hs : s.Faithful ctx)
    (hDeep : ∀ v ∈ visits ctx entries s, ¬ Overruns ctx [v.1] (resolveCell ctx v.1) v.2) :
    (evaluateEntries ctx entries).outcome s = plainPass ctx entries := by
  induction entries generalizing s with
  | nil => rfl
  | cons entry rest ih =>
    have hCell : (evaluateCell ctx entry.1).outcome s = Recursion.settle ctx [] entry.1 := by
      exact (evaluateCell_outcome h hs entry.1).resolve_right
        (hDeep (entry.1, s) (by simp [visits]))
    rw [evaluateEntries, plainPass, ← hCell]
    cases hRun : evaluateEntry ctx entry s with
    | error e t =>
      rw [outcome_of_error (bind_of_error hRun), (evaluateEntry_error hRun).1]
      rfl
    | ok x t =>
      obtain ⟨hSettled, rfl⟩ := evaluateEntry_ok hRun
      have hRest := ih (evaluateCell_final_faithful hs entry.1) fun v hv =>
        hDeep v (by rw [visits, hRun]; exact List.mem_cons_of_mem _ hv)
      rw [hSettled, ← hRest, outcome, bind_of_ok hRun]
      cases hOthers : evaluateEntries ctx rest ((evaluateCell ctx entry.1).final s) with
      | ok others u => rw [bind_of_ok hOthers, outcome_of_ok hOthers]; rfl
      | error e u => rw [bind_of_error hOthers, outcome_of_error hOthers]; rfl

theorem evaluateGrid_outcome (h : ctx.IsOrderly) (hs : s.Faithful ctx)
    (hDeep : ¬ Request.pass.IsDeep ctx s) :
    (evaluateGrid ctx).outcome s = plainPass ctx ctx.grid.entries :=
  evaluateEntries_outcome h hs fun v hv hOver => hDeep ⟨v.1, v.2, hv, hOver⟩

/-- In an orderly context every request of every faithful session ends as plain recursion says. -/
theorem Request.outcome_eq (h : ctx.IsOrderly) (hs : s.Faithful ctx) (r : Request)
    (hDeep : ¬ r.IsDeep ctx s) : (r.run ctx).outcome s = r.plainAnswer ctx := by
  cases r with
  | value f =>
    cases hReferences : f.references ctx.rangeLimit with
    | error e =>
      rw [Request.run, outcome_map,
        outcome_of_error (evaluate_of_references_error hReferences s), Request.plainAnswer,
        hReferences]
      rfl
    | ok roots =>
      have hSame := (evaluate_outcome h hs hReferences).resolve_right
        fun hOver => hDeep ⟨roots, hReferences, hOver⟩
      rw [Request.run, outcome_map, hSame, Request.plainAnswer, hReferences]
      rfl
  | cell c =>
    rw [Request.run, outcome_map, (evaluateCell_outcome h hs c).resolve_right hDeep]
    rfl
  | resolve c =>
    rw [Request.run, outcome_map, (resolveCell_outcome hs c).resolve_right hDeep]
    rfl
  | pass =>
    rw [Request.run, outcome_map, Request.plainAnswer, evaluateGrid_outcome h hs hDeep]
    rfl

theorem hasNoNumericFault_of_isOrderly (h : ctx.IsOrderly) : ctx.HasNoNumericFault := by
  intro c fault hNumeric
  have hRoomy := isOrderly_of_sameCells (roomy_sameCells ctx) h
  have hEnding := (evaluateCell_ending (Session.faithful_empty ctx.roomy) c)
  cases hEnding with
  | settled t _ hRun =>
    rw [outcome_of_ended hRun] at hNumeric
    exact hRoomy.settle c fault hNumeric
  | deep _ _ _ hRoom _ _ => exact absurd hRoom (Recursion.room_le_size []).not_gt
  | refused t e root y _ _ hRoot hReach hRefused hRun =>
    rw [List.mem_singleton] at hRoot
    subst hRoot
    rw [outcome_of_error hRun, ← hRefused.settle_eq hRoomy hReach] at hNumeric
    exact hRoomy.settle root fault hNumeric

end Resolver
end Spreadsheet
