import Spreadsheet.Proofs.Resolver.Waiting

/-!
# Single steps of a resolver

What each operation of a resolver does to a session, as equations on runs. Later modules cite these
and do not open the operations again.
-/

set_option autoImplicit false

namespace Spreadsheet

open Evaluation

namespace Session

/-- The session after an event. -/
def noted (s : Session) (m : Moment) : Session := { s with journal := m :: s.journal }

def kept (s : Session) (c : Coordinate) (cell : Option Cell) : Session where
  settled := s.settled.insert c cell
  journal := .keep c :: s.journal

/-- The session after a cell was settled on request: it is kept where the memory is on. -/
def answered (s : Session) (memoize : Bool) (c : Coordinate) (cell : Option Cell) : Session :=
  if memoize then s.kept c cell else s

/-- How the request for a formula cell ends once the cell is computed: only a success is kept. -/
def computed (s : Session) (memoize : Bool) (c : Coordinate) :
    Except Failure Cell → EStateM.Result Failure Session (Option Cell)
  | .ok cell => .ok (some cell) (s.answered memoize c (some cell))
  | .error e => .error e s

@[simp] theorem noted_settled (s : Session) (m : Moment) : (s.noted m).settled = s.settled := rfl

theorem kept_settled_self (s : Session) (c : Coordinate) (cell : Option Cell) :
    (s.kept c cell).settled[c]? = some cell := by simp [kept]

theorem kept_settled_of_ne (s : Session) {c z : Coordinate} (cell : Option Cell) (h : z ≠ c) :
    (s.kept c cell).settled[z]? = s.settled[z]? := by
  simp [kept, Std.HashMap.getElem?_insert, Ne.symm h]

@[simp] theorem mem_kept {s : Session} {c z : Coordinate} {cell : Option Cell} :
    z ∈ (s.kept c cell).settled ↔ z = c ∨ z ∈ s.settled := by
  rw [kept, Std.HashMap.mem_insert, beq_iff_eq, eq_comm]

/-- Keeping a cell that was not settled changes no other one. -/
theorem kept_grows {s : Session} {c z : Coordinate} {cell x : Option Cell} (hc : c ∉ s.settled)
    (hz : s.settled[z]? = some x) : (s.kept c cell).settled[z]? = some x := by
  have hNe : z ≠ c := by
    rintro rfl
    simp [hc] at hz
  rw [s.kept_settled_of_ne cell hNe, hz]

end Session

namespace Resolver

variable {ctx : EvaluationContext} {s t : Session} {w : List Coordinate} {c : Coordinate}
  {text : String} {d : Nat}

theorem note_run (m : Moment) (s : Session) : note m s = .ok () (s.noted m) := rfl

theorem lookup_run (c : Coordinate) (s : Session) :
    lookup ctx c s = .ok (ctx.grid.get? c) (s.noted (.lookup c)) := rfl

theorem treeOf_none (text : String) : treeOf text none = lift (Recursion.tree text) := by
  unfold treeOf Recursion.tree
  cases Formula.parse text <;> rfl

theorem treeOf_parse (text : String) :
    treeOf text (Formula.parse text).toOption = lift (Recursion.tree text) := by
  unfold treeOf Recursion.tree
  cases Formula.parse text <;> rfl

/-! ## The equations of the plain mode -/

theorem compute_eq (ctx : EvaluationContext) (settle : Coordinate → Step (Option Cell))
    (c : Coordinate) (text : String) (tree : Option Formula) :
    compute ctx settle c text tree = (do
      note (.start c)
      let result ← attempt do
        let f ← treeOf text tree
        f.evaluate (surroundings ctx settle)
      note (.finish c)
      lift (settledCell c text result)) := rfl

theorem resolve_eq (ctx : EvaluationContext) (d : Nat) (w : List Coordinate) (c : Coordinate) :
    resolve ctx d w c = (do
      match (← get).settled[c]? with
      | some cell => return cell
      | none =>
        if w.contains c then fail (.circular (cyclePath w c))
        else
          let found ← lookup ctx c
          let cell ←
            match formulaOf found with
            | none => pure found
            | some text =>
              match d with
              | 0 => throw .tooDeep
              | d + 1 => some <$> compute ctx (resolve ctx d (c :: w)) c text none
          if ctx.memoize then keep c cell
          return cell) := by
  cases d <;> rfl

theorem prepareFormula_eq (ctx : EvaluationContext)
    (prepare : List Coordinate → Coordinate → Step (List Coordinate)) (met : List Coordinate)
    (c : Coordinate) (text : String) :
    prepareFormula ctx prepare met c text = (do
      let tree := (Formula.parse text).toOption
      let references ← referencesOf ctx tree
      let met ← references.foldlM prepare (c :: met)
      if ← areSettled references then
        let cell ← compute ctx (resolve ctx (ctx.nestingLimit - 1) [c]) c text tree
        keep c (some cell)
      return met) := rfl

/-- No cell waits while a session prepares by itself. -/
theorem prepare_eq (ctx : EvaluationContext) (d : Nat) (met : List Coordinate) (c : Coordinate) :
    prepare ctx d met c = (do
      if (← get).settled.contains c || met.contains c then return met
      else
        let found ← lookup ctx c
        match formulaOf found with
        | none =>
          keep c found
          return met
        | some text =>
          match d with
          | 0 => return met
          | d + 1 => prepareFormula ctx (prepare ctx d) met c text) := by
  have hIdle : plain.waits [] c = pure false := rfl
  cases d <;>
  · rw [prepare, Mode.prepare, Mode.visit]
    simp only [hIdle, pure_bind, Bool.or_false]
    rfl

theorem prepareAll_eq (ctx : EvaluationContext) (roots : List Coordinate) :
    prepareAll ctx roots = (do
      if ctx.memoize then
        let _ ← roots.foldlM (prepare ctx ctx.grid.size) []) := rfl

theorem resolveCell_eq (ctx : EvaluationContext) (c : Coordinate) :
    resolveCell ctx c = resolve ctx ctx.nestingLimit [] c := rfl

theorem evaluate_eq (ctx : EvaluationContext) (f : Formula) :
    evaluate ctx f = (do
      let roots ← lift (f.references ctx.rangeLimit)
      prepareAll ctx roots
      reportDepth (.ok none) (f.evaluate (surroundings ctx (resolveCell ctx)))) := rfl

theorem evaluateCell_eq (ctx : EvaluationContext) (c : Coordinate) :
    evaluateCell ctx c = (do
      prepareAll ctx [c]
      reportDepth (some <$> c.toAddress) (resolveCell ctx c)) := rfl

/-! ## Resolving -/

theorem get_run (s : Session) : (get : Step Session) s = .ok s s := rfl

namespace Mode

/-- In the states that hold a session as `place` says, the mode does the steps of the session and
nothing beside. -/
structure RunsAt {State : Type} (m : Mode State) (place : Session → State) : Prop where
  perform : ∀ {α : Type} {x : Step α} {s t : Session} {r : Except Failure α}, x s = ended r t →
    m.perform x (place s) = ended r (place t)

/-- The same ending in the state that holds the session. -/
def placed {State α : Type} (place : Session → State) :
    EStateM.Result Failure Session α → EStateM.Result Failure State α
  | .ok a t => .ok a (place t)
  | .error e t => .error e (place t)

section RunsAt

variable {State : Type} {m : Mode State} {place later : Session → State}

theorem RunsAt.ok (hm : m.RunsAt place) {α : Type} {x : Step α} {a : α} (h : x s = .ok a t) :
    m.perform x (place s) = .ok a (place t) := hm.perform (r := .ok a) h

theorem RunsAt.answered_run (hm : m.RunsAt place) (cell : Option Cell) :
    (do
      if ctx.memoize then m.perform (keep c cell)
      return cell : Evaluation State (Option Cell)) (place s) =
      .ok cell (place (s.answered ctx.memoize c cell)) := by
  have hKeep : m.perform (keep c cell) (place s) = .ok () (place (s.kept c cell)) := hm.ok rfl
  unfold Session.answered
  cases ctx.memoize with
  | false => rfl
  | true =>
    simp only [if_true]
    rw [bind_of_ok hKeep]
    rfl

section Settle

variable {next : String → Evaluation State Cell}

theorem RunsAt.settle_of_settled (hm : m.RunsAt place) {cell : Option Cell}
    (h : s.settled[c]? = some cell) : m.settle ctx w c next (place s) = .ok cell (place s) := by
  rw [settle, bind_of_ok (hm.ok (get_run s)), h]
  rfl

theorem RunsAt.settle_of_waits (hm : m.RunsAt place) (h : s.settled[c]? = none)
    (hw : m.waits w c (place s) = .ok true (place s)) :
    m.settle ctx w c next (place s) = m.refuse w c (place s) := by
  rw [settle, bind_of_ok (hm.ok (get_run s)), h]
  simp only
  rw [bind_of_ok hw, if_pos rfl]

theorem RunsAt.settle_literal (hm : m.RunsAt place) (h : s.settled[c]? = none)
    (hw : m.waits w c (place s) = .ok false (place s))
    (hText : formulaOf (ctx.grid.get? c) = none) :
    m.settle ctx w c next (place s) = .ok (ctx.grid.get? c)
      (place ((s.noted (.lookup c)).answered ctx.memoize c (ctx.grid.get? c))) := by
  rw [settle, bind_of_ok (hm.ok (get_run s)), h]
  simp only
  rw [bind_of_ok hw, if_neg Bool.false_ne_true, bind_of_ok (hm.ok (lookup_run c s))]
  simp only [hText, pure_bind]
  exact hm.answered_run _

/-- A formula cell that is neither settled nor waiting is computed. -/
theorem RunsAt.settle_formula (hm : m.RunsAt place) (hLater : m.RunsAt later)
    {r : Except Failure Cell} (h : s.settled[c]? = none)
    (hw : m.waits w c (place s) = .ok false (place s))
    (hText : formulaOf (ctx.grid.get? c) = some text)
    (hNext : next text (place (s.noted (.lookup c))) = ended r (later t)) :
    m.settle ctx w c next (place s) = placed later (t.computed ctx.memoize c r) := by
  rw [settle, bind_of_ok (hm.ok (get_run s)), h]
  simp only
  rw [bind_of_ok hw, if_neg Bool.false_ne_true, bind_of_ok (hm.ok (lookup_run c s))]
  simp only [hText, map_eq_pure_bind, bind_assoc]
  cases r with
  | ok cell =>
    rw [bind_of_ok hNext, pure_bind]
    exact hLater.answered_run _
  | error e =>
    rw [bind_of_error hNext]
    rfl

end Settle

theorem RunsAt.compute_run (hm : m.RunsAt place) (hLater : m.RunsAt later)
    {settle : Coordinate → Evaluation State (Option Cell)} {tree : Option Formula}
    {r : Except Failure Value}
    (hRun : (do (← m.perform (treeOf text tree)).evaluate (m.surroundings ctx settle) :
      Evaluation State Value) (place (s.noted (.start c))) = ended r (later t)) :
    m.compute ctx settle c text tree (place s) =
      ended (settledCell c text r) (later (t.noted (.finish c))) := by
  have hStart : m.perform (note (.start c)) (place s) = .ok () (place (s.noted (.start c))) :=
    hm.ok (note_run _ s)
  have hFinish : m.perform (note (.finish c)) (later t) = .ok () (later (t.noted (.finish c))) :=
    hLater.ok (note_run _ t)
  rw [compute, bind_of_ok hStart]
  cases r with
  | ok v =>
    rw [bind_of_ok (attempt_of_ok hRun), bind_of_ok hFinish]
    rfl
  | error e =>
    rw [bind_of_ok (attempt_of_error hRun), bind_of_ok hFinish]
    generalize settledCell c text (.error e) = settled
    cases settled <;> rfl

theorem RunsAt.resolve_of_settled (hm : m.RunsAt place) {cell : Option Cell}
    (h : s.settled[c]? = some cell) : m.resolve ctx d w c (place s) = .ok cell (place s) := by
  cases d <;> exact hm.settle_of_settled h

theorem RunsAt.resolve_of_waits (hm : m.RunsAt place) (h : s.settled[c]? = none)
    (hw : m.waits w c (place s) = .ok true (place s)) :
    m.resolve ctx d w c (place s) = m.refuse w c (place s) := by
  cases d <;> exact hm.settle_of_waits h hw

theorem RunsAt.resolve_literal (hm : m.RunsAt place) (h : s.settled[c]? = none)
    (hw : m.waits w c (place s) = .ok false (place s))
    (hText : formulaOf (ctx.grid.get? c) = none) :
    m.resolve ctx d w c (place s) = .ok (ctx.grid.get? c)
      (place ((s.noted (.lookup c)).answered ctx.memoize c (ctx.grid.get? c))) := by
  cases d <;> exact hm.settle_literal h hw hText

theorem RunsAt.resolve_zero (hm : m.RunsAt place) (h : s.settled[c]? = none)
    (hw : m.waits w c (place s) = .ok false (place s))
    (hText : formulaOf (ctx.grid.get? c) = some text) :
    m.resolve ctx 0 w c (place s) = .error .tooDeep (place (s.noted (.lookup c))) :=
  hm.settle_formula hm (r := .error .tooDeep) h hw hText rfl

theorem RunsAt.resolve_succ (hm : m.RunsAt place) (hLater : m.RunsAt later)
    {r : Except Failure Cell} (h : s.settled[c]? = none)
    (hw : m.waits w c (place s) = .ok false (place s))
    (hText : formulaOf (ctx.grid.get? c) = some text)
    (hRun : m.compute ctx (m.resolve ctx d (c :: w)) c text none (place (s.noted (.lookup c))) =
      ended r (later t)) :
    m.resolve ctx (d + 1) w c (place s) = placed later (t.computed ctx.memoize c r) :=
  hm.settle_formula hLater h hw hText hRun

end RunsAt

end Mode

theorem plain_runsAt : plain.RunsAt id := ⟨fun h => h⟩

theorem plain_waits (hc : c ∈ w) : plain.waits w c s = .ok true s := by
  rw [← List.contains_iff_mem.mpr hc]
  rfl

theorem plain_waits_not (hc : c ∉ w) : plain.waits w c s = .ok false s := by
  rw [← Bool.eq_false_iff.mpr fun h => hc (List.contains_iff_mem.mp h)]
  rfl

theorem resolve_of_settled {cell : Option Cell} (h : s.settled[c]? = some cell) :
    resolve ctx d w c s = .ok cell s := plain_runsAt.resolve_of_settled h

theorem resolve_of_mem (h : s.settled[c]? = none) (hc : c ∈ w) :
    resolve ctx d w c s = .error (.formula (.circular (cyclePath w c))) s :=
  plain_runsAt.resolve_of_waits h (plain_waits hc)

theorem resolve_literal (h : s.settled[c]? = none) (hc : c ∉ w)
    (hText : formulaOf (ctx.grid.get? c) = none) :
    resolve ctx d w c s =
      .ok (ctx.grid.get? c)
        ((s.noted (.lookup c)).answered ctx.memoize c (ctx.grid.get? c)) :=
  plain_runsAt.resolve_literal h (plain_waits_not hc) hText

theorem resolve_zero (h : s.settled[c]? = none) (hc : c ∉ w)
    (hText : formulaOf (ctx.grid.get? c) = some text) :
    resolve ctx 0 w c s = .error .tooDeep (s.noted (.lookup c)) :=
  plain_runsAt.resolve_zero h (plain_waits_not hc) hText

theorem resolve_succ {r : Except Failure Cell} (h : s.settled[c]? = none) (hc : c ∉ w)
    (hText : formulaOf (ctx.grid.get? c) = some text)
    (hRun : compute ctx (resolve ctx d (c :: w)) c text none (s.noted (.lookup c)) = ended r t) :
    resolve ctx (d + 1) w c s = t.computed ctx.memoize c r := by
  have hResolve : resolve ctx (d + 1) w c s = Mode.placed id (t.computed ctx.memoize c r) :=
    plain_runsAt.resolve_succ plain_runsAt h (plain_waits_not hc) hText hRun
  cases r <;> exact hResolve

theorem compute_run {settle : Coordinate → Step (Option Cell)} {tree : Option Formula}
    {r : Except Failure Value}
    (hRun : (do (← treeOf text tree).evaluate (surroundings ctx settle) : Step Value)
      (s.noted (.start c)) = ended r t) :
    compute ctx settle c text tree s = ended (settledCell c text r) (t.noted (.finish c)) :=
  plain_runsAt.compute_run plain_runsAt hRun

end Resolver
end Spreadsheet
