import Spreadsheet.Proofs.Evaluation.Support
import Spreadsheet.Proofs.Resolver.Request

/-!
# Values rest on clean cells

A cell is clean when it settles to nothing or to a cell without an error. A formula that has a value
asks only for clean cells, and so do their formulas in turn, each within less depth than the one
before. So whatever a value depends on is clean and on no cycle: no error and no cycle is swallowed.
-/

set_option autoImplicit false

namespace Spreadsheet

open Evaluation Resolver

namespace Recursion

variable {ctx : EvaluationContext} {w : List Coordinate} {c y z : Coordinate} {text : String}
  {d : Nat}

/-- The cell settles by itself, within a depth, to nothing or to a cell without an error. -/
def CleanWithin (ctx : EvaluationContext) (d : Nat) (c : Coordinate) : Prop :=
  ∃ cell, settleWithin ctx d [] c = .ok cell ∧ errorOf cell = none

theorem CleanWithin.mono {e : Nat} (h : CleanWithin ctx e c) (hd : e ≤ d) :
    CleanWithin ctx d c := by
  obtain ⟨cell, hCell, hError⟩ := h
  exact ⟨cell, by rw [settleWithin_mono hd (by simp [hCell]), hCell], hError⟩

/-- A formula cell without an error has the value of its formula. -/
theorem value_of_settledBy {r : Except Failure Value} {cell : Option Cell}
    (h : settledBy c text r = .ok cell) (hError : errorOf cell = none) : ∃ v, r = .ok v := by
  cases r with
  | ok v => exact ⟨v, rfl⟩
  | error e =>
    obtain ⟨fault, rfl, hCircular⟩ := recordable_of_settledBy h rfl
    simp only [settledBy, settledCell, hCircular, Bool.false_eq_true, if_false] at h
    cases hAddress : c.toAddress with
    | error e => simp [hAddress] at h
    | ok address =>
      simp only [hAddress, Except.ok.injEq] at h
      subst h
      cases hError

theorem cleanWithin_of_value {f : Formula} {v : Value}
    (h : value ctx (settleWithin ctx d w) f = .ok v) (hz : f.Asks ctx.rangeLimit z) :
    CleanWithin ctx d z := by
  obtain ⟨cell, hCell, hError⟩ := hz.offers (Formula.isSupported_of_evaluate f h)
  rw [surroundings, outcome_lift] at hCell
  exact ⟨cell, settlesWithin_of_waiting hCell, hError⟩

/-- The formula of a clean cell has a value over cells that settle within less depth. -/
theorem CleanWithin.exists_value (h : CleanWithin ctx d c)
    (hText : formulaOf (ctx.grid.get? c) = some text) :
    ∃ e < d, ∃ f v, tree text = .ok f ∧ value ctx (settleWithin ctx e [c]) f = .ok v := by
  obtain ⟨cell, hCell, hError⟩ := h
  obtain ⟨e, rfl, hSettled⟩ := exists_settledBy hText hCell
  obtain ⟨v, hValue⟩ := value_of_settledBy hSettled hError
  rw [textValue] at hValue
  cases hTree : tree text with
  | error failure =>
    rw [hTree] at hValue
    cases hValue
  | ok f =>
    rw [hTree] at hValue
    exact ⟨e, e.lt_succ_self, f, v, rfl, hValue⟩

theorem CleanWithin.refers (h : CleanWithin ctx d c) (hz : Refers ctx c z) :
    ∃ e < d, CleanWithin ctx e z := by
  obtain ⟨text, f, hText, hTree, hAsks⟩ := hz
  obtain ⟨e, he, g, v, hTree', hValue⟩ := h.exists_value hText
  rw [hTree] at hTree'
  cases hTree'
  exact ⟨e, he, cleanWithin_of_value hValue hAsks⟩

theorem CleanWithin.transGen (h : CleanWithin ctx d c) (hy : Relation.TransGen (Refers ctx) c y) :
    ∃ e < d, CleanWithin ctx e y := by
  induction hy with
  | single hLast => exact h.refers hLast
  | tail _ hLast ih =>
    obtain ⟨e, he, hClean⟩ := ih
    obtain ⟨e', he', hNext⟩ := hClean.refers hLast
    exact ⟨e', he'.trans he, hNext⟩

theorem CleanWithin.reaches (h : CleanWithin ctx d c) (hy : Reaches ctx c y) :
    CleanWithin ctx d y := by
  rcases Relation.reflTransGen_iff_eq_or_transGen.mp hy with rfl | hy
  · exact h
  · obtain ⟨e, he, hClean⟩ := h.transGen hy
    exact hClean.mono he.le

/-- On a cycle every cell would settle within less depth than itself. -/
theorem CleanWithin.not_onCycle (h : CleanWithin ctx d c) : ¬ OnCycle ctx c := by
  intro hCycle
  induction d using Nat.strong_induction_on with
  | _ d ih =>
    obtain ⟨e, he, hClean⟩ := h.transGen hCycle
    exact ih e he hClean

theorem CleanWithin.not_reachesCycle (h : CleanWithin ctx d c) : ¬ ReachesCycle ctx c := by
  rintro ⟨y, hReach, hCycle⟩
  exact (h.reaches hReach).not_onCycle hCycle

end Recursion

namespace Resolver

variable {ctx : EvaluationContext} {s t : Session} {c y z : Coordinate} {w : List Coordinate}
  {d : Nat}

/-- A clean cell is not refused: its addresses are read and its references settle. -/
theorem not_refused_of_clean {e : Failure} (h : Recursion.CleanWithin ctx d c) :
    ¬ Refused ctx c e := by
  intro hRefused
  cases hRefused with
  | references hText hReferences =>
    obtain ⟨_, -, f, v, hTree, hValue⟩ := h.exists_value hText
    have hReadable : f.IsReadable := fun a ha => by
      obtain ⟨x, hx⟩ := Formula.exists_coordinate_of_mem_addresses
        (Formula.isSupported_of_evaluate f hValue) ha
      exact Coordinate.rowIsReadable_of_ofAddress hx
    rw [textReferences, hTree] at hReferences
    obtain ⟨cs, hOk⟩ : ∃ cs, f.references ctx.rangeLimit = .ok cs := hReadable.references_ok
    simp only [hOk] at hReferences
    cases hReferences
  | cell _ hSettle =>
    obtain ⟨cell, hCell, -⟩ := h
    rw [Recursion.settle_of_settlesWithin hCell] at hSettle
    cases hSettle

/-- How deep cells may wait for one another in the answer to a request: with memory on, preparation
takes away the limit for clean cells. -/
def depthOf (ctx : EvaluationContext) : Nat :=
  if ctx.memoize then Recursion.room ctx [] else ctx.nestingLimit

theorem depthOf_on (h : ctx.memoize = true) : depthOf ctx = Recursion.room ctx [] := if_pos h

theorem depthOf_off (h : ctx.memoize = false) : depthOf ctx = ctx.nestingLimit := by
  rw [depthOf, h]
  rfl

/-- Without memory a request for a cell is plain recursion within the limit. -/
theorem evaluateCell_off (hOff : ctx.memoize = false) (hs : s.Faithful ctx) {cell : Option Cell} :
    (∃ t, evaluateCell ctx c s = .ok cell t) ↔
      Recursion.settleWithin ctx (depthOf ctx) [] c = .ok cell := by
  obtain ⟨t, -, hRun | ⟨_, ⟨hShort, -⟩, -⟩⟩ :=
    resolve_follows_within (w := []) (c := c) hOff ctx.nestingLimit (fun _ _ => not_false) s hs
  · rw [depthOf_off hOff, evaluateCell_eq, bind_of_ok (prepareAll_off hOff [c] s)]
    simp only [reportDepth_eq_ok, resolveCell_eq, hRun]
    cases Recursion.settleWithin ctx ctx.nestingLimit [] c <;> simp [ended]
  · exact hShort.elim

/-- Roots that reach no cycle and nothing that is refused are all settled by preparation. -/
theorem prepareAll_settles (hMemoize : ctx.memoize = true) (hs : s.Faithful ctx)
    {roots : List Coordinate}
    (hRefused : ∀ z ∈ roots, ∀ y e, Reaches ctx z y → ¬ Refused ctx y e)
    (hCycle : ∀ z ∈ roots, ¬ ReachesCycle ctx z) :
    ∃ t, prepareAll ctx roots s = .ok () t ∧ t.Faithful ctx ∧ ∀ z ∈ roots, z ∈ t.settled := by
  cases hPrepare : prepareAll ctx roots s with
  | error e t =>
    obtain ⟨-, -, root, hRoot, y, hReach, hy⟩ := prepareAll_error hs hPrepare
    exact absurd hy (hRefused root hRoot y e hReach)
  | ok _ t =>
    obtain ⟨ht, hSettled⟩ := prepareAll_ok hs hPrepare
    exact ⟨t, rfl, ht, fun z hz => (hSettled hMemoize z hz).resolve_right (hCycle z hz)⟩

/-- A cell that the memory has after preparation is answered from there. -/
theorem evaluateCell_of_mem (hs : t.Faithful ctx) (hPrepare : prepareAll ctx [c] s = .ok () t)
    (hc : c ∈ t.settled) : (evaluateCell ctx c).outcome s = Recursion.settle ctx [] c := by
  obtain ⟨cell, hCell⟩ : ∃ cell, t.settled[c]? = some cell :=
    ⟨_, Std.HashMap.getElem?_eq_some_getElem hc⟩
  have hRun : evaluateCell ctx c s = .ok cell t := by
    rw [evaluateCell_eq, bind_of_ok hPrepare, reportDepth_eq_ok]
    exact resolve_of_settled hCell
  rw [outcome_of_ok hRun, (hs c cell hCell).2]

theorem evaluateCell_of_prepared (hMemoize : ctx.memoize = true) (hs : s.Faithful ctx)
    (hRefused : ∀ y e, Reaches ctx c y → ¬ Refused ctx y e) (hCycle : ¬ ReachesCycle ctx c) :
    (evaluateCell ctx c).outcome s = Recursion.settle ctx [] c := by
  have hAll : ∀ z ∈ [c], ∀ y e, Reaches ctx z y → ¬ Refused ctx y e := by simpa using hRefused
  have hNone : ∀ z ∈ [c], ¬ ReachesCycle ctx z := by simpa using hCycle
  obtain ⟨t, hPrepare, ht, hSettled⟩ := prepareAll_settles hMemoize hs hAll hNone
  exact evaluateCell_of_mem ht hPrepare (hSettled c List.mem_cons_self)

theorem evaluateCell_of_clean (hs : s.Faithful ctx)
    (h : Recursion.CleanWithin ctx (depthOf ctx) c) :
    ∃ cell, (evaluateCell ctx c).outcome s = .ok cell ∧ errorOf cell = none := by
  obtain ⟨cell, hCell, hError⟩ := id h
  refine ⟨cell, ?_, hError⟩
  cases hMemoize : ctx.memoize with
  | false =>
    obtain ⟨t, hRun⟩ := (evaluateCell_off hMemoize hs).mpr hCell
    exact outcome_of_ok hRun
  | true =>
    rw [evaluateCell_of_prepared hMemoize hs
      (fun y e hReach => not_refused_of_clean (h.reaches hReach)) h.not_reachesCycle]
    exact Recursion.settle_of_settlesWithin hCell

theorem settleWithin_of_evaluateCell {cell : Option Cell} (hs : s.Faithful ctx)
    (h : evaluateCell ctx c s = .ok cell t) :
    Recursion.settleWithin ctx (depthOf ctx) [] c = .ok cell := by
  cases hMemoize : ctx.memoize with
  | false => exact (evaluateCell_off hMemoize hs).mp ⟨t, h⟩
  | true =>
    rw [depthOf_on hMemoize]
    exact (evaluateCell_ending hs c).eq_ok h

/-- The value of a formula rests on cells that settle within the depth that is there. -/
theorem value_of_evaluate {f : Formula} {v : Value} (hs : s.Faithful ctx)
    (h : evaluate ctx f s = .ok v t) :
    Recursion.value ctx (Recursion.settleWithin ctx (depthOf ctx) []) f = .ok v := by
  cases hReferences : f.references ctx.rangeLimit with
  | error e =>
    rw [evaluate_of_references_error hReferences] at h
    cases h
  | ok roots =>
    cases hMemoize : ctx.memoize with
    | true =>
      rw [depthOf_on hMemoize]
      exact (evaluate_ending hReferences hs).eq_ok h
    | false =>
      rw [depthOf_off hMemoize]
      rw [evaluate_eq, hReferences, lift_ok, pure_bind,
        bind_of_ok (prepareAll_off hMemoize roots s), reportDepth_eq_ok] at h
      obtain ⟨u, -, hRun | ⟨_, ⟨hShort, -⟩, -⟩⟩ :=
        evaluate_follows_within hMemoize ctx.nestingLimit f (fun _ _ => not_false) s hs
      · rw [← outcome_of_ended hRun]
        exact outcome_of_ok h
      · exact hShort.elim

/-- Whatever one session was asked before, the cell at a coordinate settles to nothing or to a cell
without an error. -/
def SettlesClean (ctx : EvaluationContext) (c : Coordinate) : Prop :=
  ∀ before, ∃ cell, (evaluateCell ctx c).outcome (after ctx before) = .ok cell ∧
    ∀ x, cell = some x → x.error = none

theorem settlesClean_of_cleanWithin (h : Recursion.CleanWithin ctx (depthOf ctx) c) :
    SettlesClean ctx c := by
  intro before
  obtain ⟨cell, hRun, hError⟩ := evaluateCell_of_clean (after_faithful ctx before) h
  refine ⟨cell, hRun, ?_⟩
  rintro x rfl
  exact hError

/-- Everything that a formula depends on is in order. -/
structure IsDependable (ctx : EvaluationContext) (f : Formula) : Prop where
  addresses : ∀ a ∈ f.addresses, ∃ c, Coordinate.ofAddress a = .ok c
  ranges : ∀ first last, .range first last ∈ f.nodes → ∃ a b,
    Formula.corners first last = .ok (a, b) ∧ exceeds ctx.rangeLimit a b = false
  functions : ∀ name arguments, .call name arguments ∈ f.nodes →
    ∃ g, ctx.functions.byName? name = some g
  references : ∀ z, f.Asks ctx.rangeLimit z → SettlesClean ctx z
  reachable : ∀ z y, f.Asks ctx.rangeLimit z → Reaches ctx z y →
    SettlesClean ctx y ∧ ¬ OnCycle ctx y

theorem isDependable_of_value {f : Formula} {v : Value} (hd : d ≤ depthOf ctx)
    (h : Recursion.value ctx (Recursion.settleWithin ctx d w) f = .ok v) : IsDependable ctx f := by
  have hNodes := Formula.isSupported_of_evaluate f h
  have hClean : ∀ z y, f.Asks ctx.rangeLimit z → Reaches ctx z y →
      Recursion.CleanWithin ctx (depthOf ctx) y :=
    fun z y hz hy => ((Recursion.cleanWithin_of_value h hz).reaches hy).mono hd
  refine ⟨fun a ha => Formula.exists_coordinate_of_mem_addresses hNodes ha, ?_, ?_, ?_, ?_⟩
  · intro first last hRange
    obtain ⟨a, b, hCorners, hLimit, -⟩ := hNodes _ hRange
    exact ⟨a, b, hCorners, hLimit⟩
  · intro name arguments hCall
    exact hNodes _ hCall
  · exact fun z hz => settlesClean_of_cleanWithin (hClean z z hz .refl)
  · intro z y hz hy
    exact ⟨settlesClean_of_cleanWithin (hClean z y hz hy), (hClean z y hz hy).not_onCycle⟩

/-- No error and no cycle is swallowed: a formula that has a value, be it asked for or the one of a
cell without an error, depends on nothing that fails, however far away. -/
theorem isDependable_of_answer (before : List Request) :
    (∀ f v t, evaluate ctx f (after ctx before) = .ok v t → IsDependable ctx f) ∧
    ∀ c text cell t, formulaOf (ctx.grid.get? c) = some text →
      evaluateCell ctx c (after ctx before) = .ok (some cell) t → cell.error = none →
      ∃ f, Formula.parse text = .ok f ∧ IsDependable ctx f := by
  have hs := after_faithful ctx before
  constructor
  · intro f v t hRun
    exact isDependable_of_value le_rfl (value_of_evaluate hs hRun)
  · intro c text cell t hText hRun hError
    have hClean : Recursion.CleanWithin ctx (depthOf ctx) c :=
      ⟨some cell, settleWithin_of_evaluateCell hs hRun, hError⟩
    obtain ⟨e, he, f, v, hTree, hValue⟩ := hClean.exists_value hText
    exact ⟨f, Recursion.tree_eq_ok.mp hTree, isDependable_of_value he.le hValue⟩

/-- A sheet with a number and a formula over it. -/
def tripleSheet : EvaluationContext where
  grid := ⟨[(⟨0, 0⟩, { value := .int 2 }), (⟨0, 1⟩, { formula := some "=A1*3" })], by decide⟩

theorem isDependable_of_tripled :
    (∃ t, evaluateCell tripleSheet ⟨0, 1⟩ (after tripleSheet [.cell ⟨0, 0⟩]) =
        .ok (some { value := .int 6, formula := some "=A1*3" }) t) ∧
      (∃ f, Formula.parse "=A1*3" = .ok f ∧ IsDependable tripleSheet f) ∧
      IsDependable tripleSheet (.negative (.cell "B1")) := by
  have hAnswer := @isDependable_of_answer tripleSheet [.cell ⟨0, 0⟩]
  have hCell : (evaluateCell tripleSheet ⟨0, 1⟩).outcome (after tripleSheet [.cell ⟨0, 0⟩]) =
      .ok (some { value := .int 6, formula := some "=A1*3" }) := by cbv
  have hValue : (evaluate tripleSheet (.negative (.cell "B1"))).outcome
      (after tripleSheet [.cell ⟨0, 0⟩]) = .ok (.int (-6)) := by cbv
  obtain ⟨t, hRun⟩ := exists_of_outcome_ok hCell
  obtain ⟨u, hNegative⟩ := exists_of_outcome_ok hValue
  exact ⟨⟨t, hRun⟩, hAnswer.2 ⟨0, 1⟩ "=A1*3" _ t rfl hRun rfl, hAnswer.1 _ _ u hNegative⟩

end Resolver
end Spreadsheet
