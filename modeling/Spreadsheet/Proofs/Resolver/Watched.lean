import Spreadsheet.Proofs.Evaluation.Watched
import Spreadsheet.Proofs.Resolver.Cycle

/-!
# Requests under watch

The resolver in a mode that raises an alarm at the one place where it meets a cell that waits. Under
watch a request ends as it does by itself. It raises one alarm at most, then it ends in that very
circular reference, and no cell that waited at the alarm is settled when it ends.
-/

set_option autoImplicit false

namespace Spreadsheet

open Evaluation

namespace Resolver

/-! ## The mode under watch -/

/-- A step of a resolver beside a record of the alarms, the latest first. -/
abbrev Watched.Step (α : Type) := Evaluation (Session × List Alarm) α

/-- Puts on record that `c` was asked for while it waits, and ends in that circular reference. -/
def raise {α : Type} (waiting : List Coordinate) (c : Coordinate) : Watched.Step α :=
  fun (s, alarms) => .error (.formula (.circular (cyclePath waiting c)))
    (s, ⟨cyclePath waiting c, waiting⟩ :: alarms)

/-- The mode that raises an alarm where a session by itself only ends. -/
def watched : Mode (Session × List Alarm) where
  perform := quietly
  waits waiting c := return waiting.contains c
  refuse := raise
  call key arguments := quietly (note (.call key arguments))

variable {ctx : EvaluationContext} {I : Session → Prop} {A : Alarm → Session → Prop}
  {w met roots : List Coordinate} {c : Coordinate} {text : String} {d : Nat}

theorem watched_runsAt (alarms : List Alarm) : watched.RunsAt (·, alarms) :=
  ⟨fun h => quietly_of_ended h alarms⟩

section Run

variable {s : Session} {alarms : List Alarm}

theorem watched_waits (hc : c ∈ w) : watched.waits w c (s, alarms) = .ok true (s, alarms) := by
  rw [← List.contains_iff_mem.mpr hc]
  rfl

theorem watched_waits_not (hc : c ∉ w) :
    watched.waits w c (s, alarms) = .ok false (s, alarms) := by
  rw [← Bool.eq_false_iff.mpr fun h => hc (List.contains_iff_mem.mp h)]
  rfl

theorem watched_resolve_of_mem (h : s.settled[c]? = none) (hc : c ∈ w) :
    watched.resolve ctx d w c (s, alarms) = .error (.formula (.circular (cyclePath w c)))
      (s, ⟨cyclePath w c, w⟩ :: alarms) :=
  (watched_runsAt alarms).resolve_of_waits h (watched_waits hc)

theorem quietly_lift {α : Type} (r : Except Failure α) :
    quietly (lift r : Evaluation Session α) = lift r := by
  cases r <;> rfl

end Run

/-! ## Formulas and cells -/

/-- No cell of these is settled. -/
def Unsettled (w : List Coordinate) (s : Session) : Prop := ∀ z ∈ w, z ∉ s.settled

/-- What is known of an alarm when the request ends. -/
def KeepsNone (a : Alarm) (t : Session) : Prop := Unsettled a.waiting t

theorem note_watches (hI : ∀ s m, I s → I (s.noted m)) (m : Moment) :
    Watches I A (note m) (quietly (note m)) :=
  fun s _ hs => ⟨.ok (), s.noted m, [], rfl, rfl, hI s m hs, accounts_ok _ _⟩

theorem tree_ne_circular (text : String) (path : List Coordinate) :
    Recursion.tree text ≠ .error (.formula (.circular path)) := by
  intro h
  obtain ⟨fault, hFault⟩ := tree_error h
  cases hFault

section Cells

variable {settle : Coordinate → Step (Option Cell)}
  {settle' : Coordinate → Watched.Step (Option Cell)} {tree : Option Formula}

theorem body_watches (hFunctions : ctx.functions.ReportsNoCycle)
    (hI : ∀ s m, I s → I (s.noted m)) (hText : formulaOf (ctx.grid.get? c) = some text)
    (hTree : treeOf text tree = lift (Recursion.tree text))
    (hSettle : ∀ z, Refers ctx c z → Watches I A (settle z) (settle' z)) :
    Watches I A (do (← treeOf text tree).evaluate (surroundings ctx settle))
      (do (← watched.perform (treeOf text tree)).evaluate (watched.surroundings ctx settle')) := by
  have hTree' : watched.perform (lift (Recursion.tree text)) = lift (Recursion.tree text) :=
    quietly_lift _
  rw [hTree, hTree']
  cases hParse : Recursion.tree text with
  | error e => exact watches_throw fun path hPath => tree_ne_circular text path (hPath ▸ hParse)
  | ok f =>
    exact Formula.evaluate_watches f ⟨rfl, rfl, hFunctions, fun _ _ => note_watches hI _,
      fun z hz => hSettle z ⟨text, f, hText, hParse, hz⟩⟩

/-- A circular reference passes through a cell unchanged, and nothing else becomes one. -/
theorem accounts_settledCell {r : Except Failure Value} {alarms : List Alarm} {s t : Session}
    (h : Accounts A r alarms s) (hA : ∀ a, A a s → A a t) :
    Accounts A (settledCell c text r) alarms t := by
  cases h with
  | silent h => exact .silent fun path hPath => h path (settledCell_circular hPath)
  | alarm a h => exact .alarm a (hA a h)

theorem compute_watches (hI : ∀ s m, I s → I (s.noted m)) (hA : ∀ a s m, A a s → A a (s.noted m))
    (hBody : Watches I A (do (← treeOf text tree).evaluate (surroundings ctx settle))
      (do (← watched.perform (treeOf text tree)).evaluate (watched.surroundings ctx settle'))) :
    Watches I A (compute ctx settle c text tree) (watched.compute ctx settle' c text tree) := by
  intro s before hs
  obtain ⟨r, t, alarms, hx, hy, ht, hAccounts⟩ := hBody (s.noted (.start c)) before (hI s _ hs)
  exact ⟨_, _, alarms, compute_run hx, (watched_runsAt before).compute_run (watched_runsAt _) hy,
    hI t _ ht, accounts_settledCell hAccounts fun a => hA a t _⟩

end Cells

theorem Unsettled.answered {s : Session} (h : Unsettled w s) (hc : c ∉ w) (cell : Option Cell) :
    Unsettled w (s.answered ctx.memoize c cell) := by
  intro z hz
  unfold Session.answered
  split
  · rw [Session.mem_kept, not_or]
    exact ⟨fun hEq => hc (hEq ▸ hz), h z hz⟩
  · exact h z hz

/-- The cells that wait stay unsettled, whether or not the request for another cell ends well. -/
theorem resolve_watches (hFunctions : ctx.functions.ReportsNoCycle) (d : Nat) :
    Watches (Unsettled w) KeepsNone (resolve ctx d w c) (watched.resolve ctx d w c) := by
  induction d using Nat.strong_induction_on generalizing w c with
  | _ d ih =>
    intro s before hs
    have hWatch := watched_runsAt before
    cases hSettled : s.settled[c]? with
    | some cell =>
      exact ⟨.ok cell, s, [], resolve_of_settled hSettled, hWatch.resolve_of_settled hSettled, hs,
        accounts_ok _ _⟩
    | none =>
      by_cases hc : c ∈ w
      · exact ⟨_, s, [⟨cyclePath w c, w⟩], resolve_of_mem hSettled hc,
          watched_resolve_of_mem hSettled hc, hs, .alarm _ hs⟩
      cases hText : formulaOf (ctx.grid.get? c) with
      | none =>
        exact ⟨.ok _, _, [], resolve_literal hSettled hc hText,
          hWatch.resolve_literal hSettled (watched_waits_not hc) hText,
          Unsettled.answered (s := s.noted (.lookup c)) hs hc _, accounts_ok _ _⟩
      | some text =>
        cases d with
        | zero =>
          exact ⟨.error .tooDeep, s.noted (.lookup c), [], resolve_zero hSettled hc hText,
            hWatch.resolve_zero hSettled (watched_waits_not hc) hText, hs,
            .silent fun _ h => by cases h⟩
        | succ d =>
          -- while its formula is evaluated the cell waits as well
          have hWaits : Unsettled (c :: w) (s.noted (.lookup c)) := by
            intro z hz
            rcases List.mem_cons.mp hz with rfl | hz
            · simp [Std.HashMap.mem_iff_isSome_getElem?, hSettled]
            · exact hs z hz
          have hSettle : ∀ z, Refers ctx c z → Watches (Unsettled (c :: w)) KeepsNone
              (resolve ctx d (c :: w) z) (watched.resolve ctx d (c :: w) z) :=
            fun z _ => ih d d.lt_succ_self
          have hBody := body_watches hFunctions (fun _ _ h => h) hText (treeOf_none text) hSettle
          obtain ⟨r, t, alarms, hx, hy, ht, hAccounts⟩ := compute_watches (c := c)
            (fun _ _ h => h) (fun _ _ _ h => h) hBody _ before hWaits
          have hRest : Unsettled w t := fun z hz => ht z (List.mem_cons_of_mem c hz)
          have hRun := resolve_succ hSettled hc hText hx
          have hRun' := hWatch.resolve_succ (watched_runsAt (alarms ++ before)) hSettled
            (watched_waits_not hc) hText hy
          cases r with
          | ok cell =>
            obtain rfl := hAccounts.alarms_of_ok
            exact ⟨.ok (some cell), _, [], hRun, hRun', hRest.answered hc _, accounts_ok _ _⟩
          | error e => exact ⟨.error e, t, alarms, hRun, hRun', hRest, hAccounts.of_error⟩

/-! ## Preparation -/

/-- Under watch nothing is raised. -/
abbrev Quiet {α : Type} (x : Step α) (y : Watched.Step α) : Prop :=
  Watches (fun _ => True) (fun _ _ => False) x y

theorem quiet_quietly {α : Type} {x : Step α} (h : ∀ s, ∃ a t, x s = .ok a t) :
    Quiet x (quietly x) :=
  watches_quietly (fun _ _ _ _ _ => trivial) (failsOnly_of_steady h)

theorem get_quiet : Quiet (get : Step Session) (quietly get) :=
  quiet_quietly fun s => ⟨s, s, rfl⟩

theorem keep_quiet (c : Coordinate) (cell : Option Cell) :
    Quiet (keep c cell) (quietly (keep c cell)) := quiet_quietly fun _ => ⟨_, _, rfl⟩

/-- A cell whose references are all settled is computed quietly: nothing is asked for but what the
memory has. -/
theorem compute_quiet (hFunctions : ctx.functions.ReportsNoCycle) {s : Session}
    (hText : formulaOf (ctx.grid.get? c) = some text)
    (hSettled : ∀ z, Refers ctx c z → z ∈ s.settled) (before : List Alarm) :
    ∃ r t, compute ctx (resolve ctx d w) c text (Formula.parse text).toOption s = ended r t ∧
      watched.compute ctx (watched.resolve ctx d w) c text (Formula.parse text).toOption
        (s, before) = ended r (t, before) ∧ ∀ path, r ≠ .error (.formula (.circular path)) := by
  have hSettle : ∀ z, Refers ctx c z →
      Watches (·.settled = s.settled) (fun _ _ => False) (resolve ctx d w z)
        (watched.resolve ctx d w z) := by
    intro z hz u before hu
    obtain ⟨cell, hCell⟩ : ∃ cell, s.settled[z]? = some cell :=
      ⟨_, Std.HashMap.getElem?_eq_some_getElem (hSettled z hz)⟩
    rw [← hu] at hCell
    exact ⟨.ok cell, u, [], resolve_of_settled hCell,
      (watched_runsAt before).resolve_of_settled hCell, hu, accounts_ok _ _⟩
  have hBody := body_watches hFunctions (fun _ _ h => h) hText (treeOf_parse text) hSettle
  obtain ⟨r, t, alarms, hx, hy, -, hAccounts⟩ := compute_watches (c := c) (fun _ _ h => h)
    (fun _ _ _ h => h) hBody s before rfl
  cases hAccounts with
  | silent h => exact ⟨r, t, hx, hy, h⟩
  | alarm _ h => exact h.elim

theorem prepareFormula_quiet (hFunctions : ctx.functions.ReportsNoCycle)
    (hText : formulaOf (ctx.grid.get? c) = some text)
    {prepare : List Coordinate → Coordinate → Step (List Coordinate)}
    {prepare' : List Coordinate → Coordinate → Watched.Step (List Coordinate)}
    (hPrepare : ∀ met z, Quiet (prepare met z) (prepare' met z)) (met : List Coordinate) :
    Quiet (prepareFormula ctx prepare met c text)
      (watched.prepareFormula ctx prepare' met c text) := by
  have hReferences' : watched.perform (lift (textReferences ctx text)) =
      lift (textReferences ctx text) := quietly_lift _
  rw [prepareFormula_eq, Mode.prepareFormula]
  simp only [referencesOf_parse, hReferences']
  cases hReferences : textReferences ctx text with
  | error e =>
    exact watches_throw fun path hPath =>
      textReferences_ne_formula text _ (hPath ▸ hReferences)
  | ok cs =>
    simp only [lift_ok, pure_bind]
    refine (Watches.foldlM (fun z _ met => hPrepare met z) (c :: met)).bind fun met' => ?_
    intro s before _
    have hAre : watched.perform (areSettled cs) (s, before) = .ok (cs.all (s.settled.contains ·))
      (s, before) := rfl
    rw [bind_of_ok (areSettled_run cs s), bind_of_ok hAre]
    cases hAll : cs.all (s.settled.contains ·) with
    | false => exact ⟨.ok met', s, [], rfl, rfl, trivial, accounts_ok _ _⟩
    | true =>
      have hSettled : ∀ z, Refers ctx c z → z ∈ s.settled := fun z hz =>
        Std.HashMap.contains_iff_mem.mp
          (List.all_eq_true.mp hAll z ((mem_textReferences hReferences hText).mpr hz))
      obtain ⟨r, t, hx, hy, hNot⟩ := compute_quiet (d := ctx.nestingLimit - 1) (w := [c])
        hFunctions hText hSettled before
      simp only [if_true]
      cases r with
      | error e =>
        exact ⟨.error e, t, [], bind_of_error hx, bind_of_error hy, trivial,
          .silent fun path hPath => hNot path (by cases hPath; rfl)⟩
      | ok cell =>
        refine ⟨.ok met', t.kept c (some cell), [], ?_, ?_, trivial, accounts_ok _ _⟩
        · rw [bind_of_ok hx]
          rfl
        · rw [bind_of_ok hy]
          rfl

theorem visit_quiet {next : String → Step (List Coordinate)}
    {next' : String → Watched.Step (List Coordinate)}
    (h : ∀ text, formulaOf (ctx.grid.get? c) = some text → Quiet (next text) (next' text)) :
    Quiet (plain.visit ctx met c next) (watched.visit ctx met c next') := by
  refine get_quiet.bind fun s => (watches_pure false).bind fun b => ?_
  cases s.settled.contains c || met.contains c || b with
  | true => exact watches_pure met
  | false =>
    -- a lookup gives what the grid has there
    intro before alarms _
    have hLookup : plain.perform (lookup ctx c) before = .ok _ (before.noted (.lookup c)) :=
      lookup_run c before
    have hLookup' := (watched_runsAt alarms).ok (lookup_run c before : lookup ctx c before = _)
    simp only [Bool.false_eq_true, if_false]
    rw [bind_of_ok hLookup, bind_of_ok hLookup']
    cases hText : formulaOf (ctx.grid.get? c) with
    | none => exact (keep_quiet c _).bind (fun _ => watches_pure met) _ alarms trivial
    | some text => exact h text hText _ alarms trivial

theorem prepare_quiet (hFunctions : ctx.functions.ReportsNoCycle) (d : Nat)
    (met : List Coordinate) (c : Coordinate) :
    Quiet (prepare ctx d met c) (watched.prepare ctx d met c) := by
  induction d generalizing met c with
  | zero => exact visit_quiet fun _ _ => watches_pure met
  | succ d ih => exact visit_quiet fun _ hText => prepareFormula_quiet hFunctions hText ih met

theorem prepareAll_quiet (hFunctions : ctx.functions.ReportsNoCycle) (roots : List Coordinate) :
    Quiet (prepareAll ctx roots) (watched.prepareAll ctx roots) := by
  rw [prepareAll_eq, Mode.prepareAll]
  cases ctx.memoize with
  | false => exact watches_pure ()
  | true =>
    exact (Watches.foldlM (fun c _ met => prepare_quiet hFunctions _ met c) []).bind
      fun _ => watches_pure ()

/-! ## Requests -/

theorem accounts_reported {α : Type} {address : Except Failure (Option String)}
    {r : Except Failure α} {alarms : List Alarm} {t : Session}
    (hAddress : ∀ path, depthFailure address ≠ .formula (.circular path))
    (h : Accounts A r alarms t) : Accounts A (reported address r) alarms t := by
  cases h with
  | silent h =>
    refine .silent fun path hPath => ?_
    rcases reported_eq_error hPath with hSame | ⟨-, hDepth⟩
    · exact h path hSame
    · exact hAddress path hDepth.symm
  | alarm a h => exact .alarm a h

theorem reportDepth_watches {α : Type} {address : Except Failure (Option String)} {x : Step α}
    {y : Watched.Step α} (hAddress : ∀ path, depthFailure address ≠ .formula (.circular path))
    (h : Watches I A x y) : Watches I A (reportDepth address x) (reportDepth address y) := by
  intro s before hs
  obtain ⟨r, t, alarms, hx, hy, ht, hAccounts⟩ := h s before hs
  exact ⟨_, t, alarms, reportDepth_run hx, reportDepth_run hy, ht,
    accounts_reported hAddress hAccounts⟩

theorem resolveCell_watches (hFunctions : ctx.functions.ReportsNoCycle) (c : Coordinate) :
    Watches (fun _ => True) KeepsNone (resolveCell ctx c) (watched.resolveCell ctx c) := by
  intro s before _
  obtain ⟨r, t, alarms, hx, hy, -, hAccounts⟩ :=
    resolve_watches hFunctions ctx.nestingLimit s before (w := []) (c := c) nofun
  exact ⟨r, t, alarms, hx, hy, trivial, hAccounts⟩

theorem evaluateCell_watches (hFunctions : ctx.functions.ReportsNoCycle) (c : Coordinate) :
    Watches (fun _ => True) KeepsNone (evaluateCell ctx c) (watched.evaluateCell ctx c) :=
  ((prepareAll_quiet hFunctions [c]).mono fun _ _ => False.elim).bind fun _ =>
    reportDepth_watches (depthFailure_ne_circular c) (resolveCell_watches hFunctions c)

theorem evaluate_watches (hFunctions : ctx.functions.ReportsNoCycle) (f : Formula) :
    Watches (fun _ => True) KeepsNone (evaluate ctx f) (watched.evaluate ctx f) := by
  rw [evaluate_eq, Mode.evaluate]
  refine (watches_lift fun path hPath => f.references_ne_formula _ hPath).bind fun roots => ?_
  refine ((prepareAll_quiet hFunctions roots).mono fun _ _ => False.elim).bind fun _ => ?_
  refine reportDepth_watches nofun (Formula.evaluate_watches f ?_)
  exact ⟨rfl, rfl, hFunctions, fun _ _ => note_watches (fun _ _ _ => trivial) _,
    fun c _ => resolveCell_watches hFunctions c⟩

end Resolver
end Spreadsheet
