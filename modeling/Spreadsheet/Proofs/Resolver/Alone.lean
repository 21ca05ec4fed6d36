import Spreadsheet.Proofs.Resolver.Descent
import Spreadsheet.Proofs.Resolver.SettledSheet

/-!
# A cell asked for alone

A request for a cell may find other cells settled, by the requests of one pass or of another one.
With the memory on, that changes neither whether the request meets a cycle nor whether its
preparation is refused: a pass that returns was refused nowhere, and then no cell of the sheet is
refused when it is asked for alone.
-/

set_option autoImplicit false

namespace Spreadsheet

open Evaluation

/-- The memory is that of requests for cells: it agrees with plain recursion, and every cell in it
can be read. -/
structure Session.Charted (ctx : EvaluationContext) (s : Session) : Prop where
  faithful : s.Faithful ctx
  legible : ∀ x ∈ s.settled, IsLegible ctx x

theorem Session.charted_empty (ctx : EvaluationContext) : Session.Charted ctx {} :=
  ⟨Session.faithful_empty ctx, by simp⟩

namespace Resolver

variable {ctx : EvaluationContext} {s t u : Session} {met roots refs path : List Coordinate}
  {c z : Coordinate} {text : String} {e : Failure} {r : Except Failure (List Coordinate)}

/-! ## Walks from the empty session -/

theorem Enters.isLegible (h : Enters ctx met s c text refs) : IsLegible ctx c := by
  intro text' hText'
  obtain rfl : text = text' := Option.some.inj (h.formula.symm.trans hText')
  exact ⟨refs, h.references⟩

theorem isLegible_of_literal (hText : formulaOf (ctx.grid.get? c) = none) : IsLegible ctx c := by
  intro text hSome
  rw [hText] at hSome
  cases hSome

/-- A walk settles cells that can be read, and puts others off that can be read. -/
theorem Walk.legible (h : Walk ctx met s roots r t) (hMet : ∀ x ∈ met, IsLegible ctx x)
    (hs : ∀ x ∈ s.settled, IsLegible ctx x) :
    (∀ met', r = .ok met' → ∀ x ∈ met', IsLegible ctx x) ∧ ∀ x ∈ t.settled, IsLegible ctx x := by
  induction h with
  | done =>
    refine ⟨?_, hs⟩
    rintro _ ⟨⟩
    exact hMet
  | skip _ _ ih => exact ih hMet hs
  | literal _ hText _ ih =>
    refine ih hMet fun x hx => ?_
    rcases Session.mem_kept.mp hx with rfl | hx
    · exact isLegible_of_literal hText
    · exact hs x hx
  | unreadable => exact ⟨nofun, hs⟩
  | stuck h _ ih =>
    exact ⟨nofun, (ih (List.forall_mem_cons.mpr ⟨h.isLegible, hMet⟩) hs).2⟩
  | putOff h _ _ _ ihBelow ihRest =>
    obtain ⟨hBetween, hSettled⟩ := ihBelow (List.forall_mem_cons.mpr ⟨h.isLegible, hMet⟩) hs
    exact ihRest (hBetween _ rfl) hSettled
  | failed h _ _ hRun _ ih =>
    refine ⟨nofun, ?_⟩
    rw [hRun.settled]
    exact (ih (List.forall_mem_cons.mpr ⟨h.isLegible, hMet⟩) hs).2
  | settled h _ _ hRun _ _ ihBelow ihRest =>
    obtain ⟨hBetween, hSettled⟩ := ihBelow (List.forall_mem_cons.mpr ⟨h.isLegible, hMet⟩) hs
    refine ihRest (hBetween _ rfl) fun x hx => ?_
    rcases Session.mem_kept.mp hx with rfl | hx
    · exact h.isLegible
    · rw [hRun.settled] at hx
      exact hSettled x hx

theorem Computes.faithful {v : Except Failure Value} (h : Computes ctx c s v t)
    (hs : s.Faithful ctx) : t.Faithful ctx := by
  intro z cell hz
  rw [h.settled] at hz
  exact hs z cell hz

/-- What was computed from the memory is what plain recursion settles. -/
theorem Computes.settle_eq {v : Except Failure Value} (h : Computes ctx c s v t)
    (hs : s.Faithful ctx) (hText : formulaOf (ctx.grid.get? c) = some text) :
    Recursion.settle ctx [] c = (settledCell c text v).map some := by
  rw [Recursion.settle_formula (by simp) hText, h.plain hs hText]
  cases hCell : settledCell c text (Recursion.textValue ctx (Recursion.settle ctx [c]) text) with
  | ok cell => exact Recursion.settledBy_of_ok hCell
  | error e => exact Recursion.settledBy_of_error hCell

theorem Walk.faithful (h : Walk ctx met s roots r t) (hOn : ctx.memoize = true)
    (hs : s.Faithful ctx) : t.Faithful ctx := by
  induction h with
  | done => exact hs
  | skip _ _ ih => exact ih hs
  | literal _ hText _ ih =>
    exact ih ((hs.noted _).kept hOn (Recursion.settle_literal (by simp) hText))
  | unreadable => exact hs.noted _
  | stuck _ _ ih => exact ih (hs.noted _)
  | putOff _ _ _ _ ihBelow ihRest => exact ihRest (ihBelow (hs.noted _))
  | failed _ _ _ hRun _ ih => exact hRun.faithful (ih (hs.noted _))
  | settled h _ _ hRun hCell _ ihBelow ihRest =>
    have hBelow := ihBelow (hs.noted _)
    refine ihRest ((hRun.faithful hBelow).kept hOn ?_)
    rw [hRun.settle_eq hBelow h.formula, hCell]
    rfl

/-- A walk never settles a cell above a cycle. -/
theorem Walk.not_reachesCycle (h : Walk ctx met s roots r t)
    (hs : ∀ x ∈ s.settled, ¬ ReachesCycle ctx x) : ∀ x ∈ t.settled, ¬ ReachesCycle ctx x := by
  induction h with
  | done => exact hs
  | skip _ _ ih => exact ih hs
  | @literal met cs s t c r hFresh hText rest ih =>
    refine ih fun x hx => ?_
    rcases Session.mem_kept.mp hx with rfl | hx
    · exact not_reachesCycle_of_refers fun z hz => absurd hz (not_refers_of_literal hText)
    · exact hs x hx
  | unreadable => exact hs
  | stuck _ _ ih => exact ih hs
  | putOff _ _ _ _ ihBelow ihRest => exact ihRest (ihBelow hs)
  | failed _ _ _ hRun _ ih =>
    rw [hRun.settled]
    exact ih hs
  | settled _ _ hAll hRun _ _ ihBelow ihRest =>
    refine ihRest fun x hx => ?_
    rcases Session.mem_kept.mp hx with rfl | hx
    · exact not_reachesCycle_of_refers fun z hz => ihBelow hs z (hAll z hz)
    · rw [hRun.settled] at hx
      exact ihBelow hs x hx

/-! ## Refused cells -/

/-- No request for cells prepares this cell: its references cannot be read, or there is no cycle
below it and it settles to nothing. -/
inductive Bars (ctx : EvaluationContext) (c : Coordinate) : Prop
  | unreadable (h : ¬ IsLegible ctx c) : Bars ctx c
  | fails {e : Failure} (hCycle : ¬ ReachesCycle ctx c) (h : Recursion.settle ctx [] c = .error e) :
      Bars ctx c

theorem Bars.mem_coordinates (h : Bars ctx c) : c ∈ ctx.grid.coordinates := by
  rw [Grid.mem_coordinates_iff]
  cases hCell : ctx.grid.get? c with
  | some cell => exact ⟨cell, rfl⟩
  | none =>
    have hText : formulaOf (ctx.grid.get? c) = none := by rw [hCell]; rfl
    cases h with
    | unreadable hNot => exact absurd (isLegible_of_literal hText) hNot
    | fails _ hSettle =>
      rw [Recursion.settle_literal (by simp) hText] at hSettle
      cases hSettle

/-- Preparation that is refused without a cycle in the memory is refused at a barred cell. -/
theorem Walk.bars (h : Walk ctx met s roots r t) (hr : r = .error e) (hOn : ctx.memoize = true)
    (hs : s.Faithful ctx) (hCycle : ∀ x ∈ s.settled, ¬ ReachesCycle ctx x) :
    ∃ z ∈ roots, ∃ y, Reaches ctx z y ∧ Bars ctx y := by
  induction h with
  | done => cases hr
  | skip _ _ ih =>
    obtain ⟨z, hz, hReach⟩ := ih hr hs hCycle
    exact ⟨z, List.mem_cons_of_mem _ hz, hReach⟩
  | @literal met cs s t c r hFresh hText rest ih =>
    have hFirst : Walk ctx met s [c] (.ok met) ((s.noted (.lookup c)).kept c (ctx.grid.get? c)) :=
      .literal hFresh hText .done
    obtain ⟨z, hz, hReach⟩ := ih hr (hFirst.faithful hOn hs) (hFirst.not_reachesCycle hCycle)
    exact ⟨z, List.mem_cons_of_mem _ hz, hReach⟩
  | unreadable _ hText hError =>
    refine ⟨_, List.mem_cons_self, _, .refl, .unreadable fun hLegible => ?_⟩
    obtain ⟨cs, hOk⟩ := hLegible _ hText
    rw [hError] at hOk
    cases hOk
  | stuck h _ ih =>
    obtain ⟨z, hz, y, hReach, hBars⟩ := ih hr (hs.noted _) hCycle
    exact ⟨_, List.mem_cons_self, y, .head (h.mem_references.mp hz) hReach, hBars⟩
  | putOff _ below _ _ _ ih =>
    obtain ⟨z, hz, hReach⟩ :=
      ih hr (below.faithful hOn (hs.noted _)) (below.not_reachesCycle hCycle)
    exact ⟨z, List.mem_cons_of_mem _ hz, hReach⟩
  | failed h below hAll hRun hCell =>
    have hSettle := hRun.settle_eq (below.faithful hOn (hs.noted _)) h.formula
    rw [hCell] at hSettle
    have hNone := not_reachesCycle_of_refers fun z hz =>
      below.not_reachesCycle hCycle z (hAll z hz)
    exact ⟨_, List.mem_cons_self, _, .refl, .fails hNone hSettle⟩
  | @settled met cs refs between s t u x c text v cell r h below hAll hRun hCell rest _ ih =>
    have hFirst : Walk ctx met s [c] (.ok between) (u.kept c (some cell)) :=
      .settled h below hAll hRun hCell .done
    obtain ⟨z, hz, hReach⟩ := ih hr (hFirst.faithful hOn hs) (hFirst.not_reachesCycle hCycle)
    exact ⟨z, List.mem_cons_of_mem _ hz, hReach⟩

theorem Bars.prepareAll_ne_ok (h : Bars ctx c) (hOn : ctx.memoize = true) (hs : s.Charted ctx) :
    prepareAll ctx [c] s ≠ .ok () t := by
  intro hPrepare
  cases h with
  | unreadable hNot =>
    obtain ⟨r, hr, walk⟩ := prepareAll_walk (a := .ok ()) hOn hs.faithful hPrepare
    cases r with
    | error e => cases hr
    | ok met =>
      obtain ⟨hMet, hSettled⟩ := walk.legible (by simp) hs.legible
      rcases walk.roots_known rfl List.mem_cons_self with hMem | hMem
      · exact hNot (hSettled c hMem)
      · exact hNot (hMet met rfl c hMem)
  | fails hCycle hSettle =>
    obtain ⟨ht, hSettled⟩ := prepareAll_ok hs.faithful hPrepare
    have hMem := (hSettled hOn c List.mem_cons_self).resolve_right hCycle
    have hOk := (ht c _ (Std.HashMap.getElem?_eq_some_getElem hMem)).2
    rw [hSettle] at hOk
    cases hOk

/-- No cell reports that its preparation was refused. -/
theorem Breaks.not_endsCellOnly {fault : FormulaFault} (hFunctions : ctx.functions.ReportsNoCycle)
    (h : Breaks ctx c (.formula fault)) : endsCellOnly fault = false := by
  cases h with
  | unreadable hText => exact absurd hText (textReferences_ne_formula _ _)
  | failed hRun hCell =>
    rcases settledCell_error hCell with ⟨hValue, hNot⟩ | hAddress
    · have hCircular : fault.isCircular = false := by
        rcases hRun.own _ hValue with hOwn | ⟨p, hParsing⟩
        · exact hOwn.not_circular hFunctions
        · cases hParsing
          rfl
      exact absurd ⟨fault, rfl, hCircular⟩ hNot
    · rcases Coordinate.toAddress_error hAddress with ⟨p, hFault⟩ | ⟨-, hFault⟩
      · cases hFault
      · cases hFault
        rfl

theorem settledEntry_of_refused {source : Cell} (hFunctions : ctx.functions.ReportsNoCycle)
    (hs : s.Faithful ctx) (h : prepareAll ctx [c] s = .error e t) :
    settledEntry (c, source) ((evaluateCell ctx c).outcome s) = .error e := by
  have hRun : evaluateCell ctx c s = .error e t := by
    rw [evaluateCell_eq, bind_of_error h]
  rw [outcome_of_error hRun]
  obtain ⟨-, hOn, -⟩ := prepareAll_error hs h
  obtain ⟨r, hr, walk⟩ := prepareAll_walk (a := .error e) hOn hs h
  cases r with
  | ok met => cases hr
  | error e' =>
    cases hr
    obtain ⟨y, -, hBreaks⟩ := walk.breaks rfl
    cases e with
    | formula fault => simp [settledEntry, hBreaks.not_endsCellOnly hFunctions]
    | numeric fault => rfl
    | tooDeep => rfl

/-! ## Circular references by session -/

/-- After the walk of a request, the descent from its cells may begin. -/
theorem Walk.goesDown (h : Walk ctx [] s roots (.ok met) t)
    (hFunctions : ctx.functions.ReportsNoCycle) (hOn : ctx.memoize = true) (hs : s.Charted ctx) :
    t.Rests ctx (· ∈ t.settled) ∧ ∀ z ∈ roots,
      GoesDown ctx (· ∈ t.settled) ctx.nestingLimit [] z (resolveCell ctx z) := by
  obtain ⟨hMet, hSettled⟩ := h.legible (by simp) hs.legible
  have ht := h.faithful hOn hs.faithful
  have hRests : t.Rests ctx (· ∈ t.settled) := by
    refine ⟨fun _ hx => hx, hSettled, fun x cell hx hNone => ?_⟩
    have hClean : Recursion.CleanWithin ctx _ x := ⟨cell, (ht x cell hx).2, hNone⟩
    exact hClean.not_reachesCycle
  have hCover : Cover ctx (fun _ => True) (ReachesCycle ctx) (· ∈ t.settled)
      fun x => True ∧ (x ∈ t.settled ∨ x ∈ met) :=
    h.cover (fun _ _ _ _ => trivial) fun _ _ hCycle => hCycle
  refine ⟨hRests, fun z hz => resolve_goesDown hFunctions
    ⟨hCover.asked, fun x hx hNot => ?_, hCover.refers⟩ _ ⟨trivial, h.roots_known rfl hz⟩⟩
  exact ⟨hCover.waits x hx hNot, hMet met rfl x (hx.2.resolve_left hNot)⟩

/-- What a request that prepares its roots settles can be read, if what it does after the walk keeps
to that. -/
theorem Serves.legible {α : Type} {x : Step α} {a : Except Failure α}
    {address : Except Failure (Option String)} (h : Serves ctx roots address x s a t)
    (hOn : ctx.memoize = true) (hs : s.Charted ctx)
    (hx : ∀ met u, Walk ctx [] s roots (.ok met) u → ∃ b v, x u = ended b v ∧
      ∀ y ∈ v.settled, IsLegible ctx y) :
    ∀ y ∈ t.settled, IsLegible ctx y := by
  cases h with
  | atOnce hOff =>
    rw [hOn] at hOff
    cases hOff
  | refused _ walk => exact (walk.legible (by simp) hs.legible).2
  | walked _ walk _ hRun =>
    obtain ⟨b, v, hSame, hv⟩ := hx _ _ walk
    obtain ⟨-, rfl⟩ := ended_inj (hSame.symm.trans hRun)
    exact hv

theorem evaluateCell_final_charted (hFunctions : ctx.functions.ReportsNoCycle)
    (hOn : ctx.memoize = true) (hs : s.Charted ctx) (c : Coordinate) :
    ((evaluateCell ctx c).final s).Charted ctx := by
  refine ⟨evaluateCell_final_faithful hs.faithful c, ?_⟩
  obtain ⟨a, u, hRun⟩ := exists_ended (evaluateCell ctx c) s
  rw [final_of_ended hRun]
  refine (evaluateCell_serves hs.faithful hRun).legible hOn hs fun met t walk => ?_
  obtain ⟨hRests, hDown⟩ := walk.goesDown hFunctions hOn hs
  obtain ⟨b, v, hResolve, hv, -⟩ := hDown c List.mem_cons_self t hRests
  exact ⟨b, v, hResolve, hv.legible⟩

theorem evaluate_final_legible (hFunctions : ctx.functions.ReportsNoCycle)
    (hOn : ctx.memoize = true) (hs : s.Charted ctx) (f : Formula) :
    ∀ y ∈ ((evaluate ctx f).final s).settled, IsLegible ctx y := by
  cases hReferences : f.references ctx.rangeLimit with
  | error e =>
    rw [final_of_error (evaluate_of_references_error hReferences s)]
    exact hs.legible
  | ok roots =>
    obtain ⟨a, u, hRun⟩ := exists_ended (evaluate ctx f) s
    rw [final_of_ended hRun]
    refine (evaluate_serves hs.faithful hReferences hRun).legible hOn hs fun met t walk => ?_
    obtain ⟨hRests, hDown⟩ := walk.goesDown hFunctions hOn hs
    obtain ⟨b, v, hFormula, hv, -⟩ := f.evaluate_comesTo
      (resolver_discernsCycles hFunctions hDown) hReferences (fun _ hz => hz) t hRests
    exact ⟨b, v, hFormula, hv.legible⟩

/-- The memory stays that of requests for cells, unless a cell is resolved without preparation. -/
theorem Request.final_charted (hFunctions : ctx.functions.ReportsNoCycle)
    (hOn : ctx.memoize = true) (hs : s.Charted ctx) (r : Request) (hr : ∀ c, r ≠ .resolve c) :
    ((r.run ctx).final s).Charted ctx := by
  refine ⟨r.final_faithful hs.faithful, ?_⟩
  cases r with
  | value f =>
    rw [Request.run, final_map]
    exact evaluate_final_legible hFunctions hOn hs f
  | cell c =>
    rw [Request.run, final_map]
    exact (evaluateCell_final_charted hFunctions hOn hs c).legible
  | resolve c => exact absurd rfl (hr c)
  | pass =>
    rw [Request.run, final_map]
    have hFinal : ((evaluateGrid ctx).final s).Charted ctx :=
      evaluateEntries_final hs fun entry _ _ hs =>
        evaluateCell_final_charted hFunctions hOn hs entry.1
    exact hFinal.legible

theorem after_charted (hFunctions : ctx.functions.ReportsNoCycle) (hOn : ctx.memoize = true)
    {requests : List Request} (h : ∀ c, .resolve c ∉ requests) :
    (after ctx requests).Charted ctx := by
  refine after_of_final (Session.charted_empty ctx) fun r hr s hs => ?_
  refine r.final_charted hFunctions hOn hs fun c hEq => ?_
  subst hEq
  exact h c hr

theorem evaluateCell_of_prepareAll (h : prepareAll ctx [c] s = .ok () t) :
    (evaluateCell ctx c).outcome s =
      reported (some <$> c.toAddress) ((resolveCell ctx c).outcome t) := by
  obtain ⟨r, u, hRun⟩ := exists_ended (resolveCell ctx c) t
  have hReported : evaluateCell ctx c s = ended (reported (some <$> c.toAddress) r) u := by
    rw [evaluateCell_eq, bind_of_ok h, reportDepth_run hRun]
  rw [outcome_of_ended hReported, outcome_of_ended hRun]

/-- Once it is prepared, a cell settles as by plain recursion, or too many cells wait for it. -/
theorem resolveCell_of_prepareAll (hFunctions : ctx.functions.ReportsNoCycle)
    (hOn : ctx.memoize = true) (hs : s.Charted ctx) (h : prepareAll ctx [c] s = .ok () t) :
    ∃ r, (resolveCell ctx c).outcome t = r ∧
      (r = Recursion.settle ctx [] c ∨ r = .error .tooDeep) ∧
      ∀ e, r = .error e → FailsBelow ctx ctx.nestingLimit [] c e := by
  obtain ⟨b, hb, walk⟩ := prepareAll_walk (a := .ok ()) hOn hs.faithful h
  cases b with
  | error e => cases hb
  | ok met =>
    obtain ⟨hRests, hDown⟩ := walk.goesDown hFunctions hOn hs
    obtain ⟨r, u, hRun, -, -, hFails⟩ := hDown c List.mem_cons_self t hRests
    refine ⟨r, outcome_of_ended hRun, ?_, hFails⟩
    obtain ⟨v, -, hFollows | ⟨_, ⟨-, rfl⟩, hDeep⟩⟩ := resolve_follows ctx.nestingLimit
      (Recursion.outlasts_nil (c := c)) (fun _ _ => not_false) t (walk.faithful hOn hs.faithful)
    · exact .inl (ended_inj (hRun.symm.trans hFollows)).1
    · exact .inr (eq_of_ended_error (hDeep.symm.trans hRun)).1

/-- A request for a prepared cell that ends in a circular reference ends in it from every session in
which the cell can be prepared. -/
theorem circular_of_circular (hFunctions : ctx.functions.ReportsNoCycle)
    (hOn : ctx.memoize = true) {s' t' : Session} (hs : s.Charted ctx) (hs' : s'.Charted ctx)
    (hPrepare : prepareAll ctx [c] s = .ok () t) (hPrepare' : prepareAll ctx [c] s' = .ok () t')
    (h : (evaluateCell ctx c).outcome s = .error (.formula (.circular path))) :
    (evaluateCell ctx c).outcome s' = .error (.formula (.circular path)) := by
  rw [evaluateCell_of_prepareAll hPrepare] at h
  rw [evaluateCell_of_prepareAll hPrepare']
  obtain ⟨r, hOutcome, hSettle, hFails⟩ := resolveCell_of_prepareAll hFunctions hOn hs hPrepare
  obtain ⟨r', hOutcome', hSettle', hFails'⟩ :=
    resolveCell_of_prepareAll hFunctions hOn hs' hPrepare'
  rw [hOutcome] at h
  rw [hOutcome']
  rcases reported_eq_error h with rfl | ⟨-, hDeep⟩
  · -- both requests go the same way down, so where one closes a cycle the other has room to
    have hCloses := (hFails _ rfl).circular path rfl
    rcases hSettle with hPlain | hDeep
    · rcases hSettle' with rfl | rfl
      · rw [← hPlain]
        rfl
      · exact absurd ((hFails' _ rfl).tooDeep rfl) hCloses.not_exceeds
    · cases hDeep
  · exact absurd hDeep.symm (depthFailure_ne_circular c path)

/-! ## Passes -/

variable {entries results : List (Coordinate × Cell)}

theorem visits_charted (hFunctions : ctx.functions.ReportsNoCycle) (hOn : ctx.memoize = true)
    (hs : s.Charted ctx) {v : Coordinate × Session} (hv : v ∈ visits ctx entries s) :
    v.2.Charted ctx :=
  visits_of_final hs (fun entry _ _ hs => evaluateCell_final_charted hFunctions hOn hs entry.1) hv

/-- A pass that returns was not refused at the entry of one of its results. -/
theorem prepareAll_of_visit (hFunctions : ctx.functions.ReportsNoCycle) (hs : s.Faithful ctx)
    {source : Cell} {x : Option (Coordinate × Cell)}
    (h : settledEntry (c, source) ((evaluateCell ctx c).outcome s) = .ok x) :
    ∃ t, prepareAll ctx [c] s = .ok () t := by
  cases hPrepare : prepareAll ctx [c] s with
  | ok _ t => exact ⟨t, rfl⟩
  | error e t =>
    rw [settledEntry_of_refused hFunctions hs hPrepare] at h
    cases h

/-- Where a pass returns, every cell can be prepared when it is asked for alone. -/
theorem prepareAll_alone (hFunctions : ctx.functions.ReportsNoCycle) (hOn : ctx.memoize = true)
    (hs : s.Charted ctx) (h : evaluateGrid ctx s = .ok results t) (c : Coordinate) :
    ∃ u, prepareAll ctx [c] {} = .ok () u := by
  cases hPrepare : prepareAll ctx [c] {} with
  | ok _ u => exact ⟨u, rfl⟩
  | error e u =>
    obtain ⟨b, hb, walk⟩ :=
      prepareAll_walk (a := .error e) hOn (Session.faithful_empty ctx) hPrepare
    cases b with
    | ok met => cases hb
    | error e' =>
      -- the pass comes to the barred cell as well, and is refused there
      obtain ⟨-, -, y, -, hBars⟩ := walk.bars rfl hOn (Session.faithful_empty ctx) (by simp)
      have hMem := hBars.mem_coordinates
      rw [← coordinates_of_evaluateGrid hs.faithful h, List.mem_map] at hMem
      obtain ⟨result, hResult, rfl⟩ := hMem
      obtain ⟨source, v, -, hVisit, hEntry⟩ := mem_of_evaluateEntries h hResult
      have hv := visits_charted hFunctions hOn hs hVisit
      obtain ⟨x, hOk⟩ := prepareAll_of_visit hFunctions hv.faithful hEntry
      exact absurd hOk (hBars.prepareAll_ne_ok hOn hv)

/-- Without memory every request for a cell is plain recursion within the limit. -/
theorem evaluateCell_within (hOff : ctx.memoize = false) (hs : s.Faithful ctx) (c : Coordinate) :
    (evaluateCell ctx c).outcome s =
      reported (some <$> c.toAddress) (Recursion.settleWithin ctx ctx.nestingLimit [] c) := by
  rw [evaluateCell_of_prepareAll (prepareAll_off hOff [c] s)]
  obtain ⟨u, -, hRun | ⟨_, ⟨hShort, -⟩, -⟩⟩ := resolve_follows_within (w := []) (c := c) hOff
    ctx.nestingLimit (fun _ _ => not_false) s hs
  · rw [resolveCell_eq, outcome_of_ended hRun]
  · exact hShort.elim

/-- A pass that returns meets a circular reference at a cell exactly when the cell, asked for alone,
ends in it. -/
theorem circular_in_pass_iff (hFunctions : ctx.functions.ReportsNoCycle) (hs : s.Faithful ctx)
    (hCharted : ctx.memoize = true → s.Charted ctx) (h : evaluateGrid ctx s = .ok results t)
    {source : Cell} {x : Option (Coordinate × Cell)}
    (hVisit : (c, u) ∈ visits ctx ctx.grid.entries s)
    (hEntry : settledEntry (c, source) ((evaluateCell ctx c).outcome u) = .ok x) :
    (evaluateCell ctx c).outcome u = .error (.formula (.circular path)) ↔
      (evaluateCell ctx c).outcome {} = .error (.formula (.circular path)) := by
  cases hMemoize : ctx.memoize with
  | false =>
    have hu := visits_faithful hs hVisit
    rw [evaluateCell_within hMemoize hu, evaluateCell_within hMemoize (Session.faithful_empty ctx)]
  | true =>
    have hCharted := hCharted hMemoize
    have hu := visits_charted hFunctions hMemoize hCharted hVisit
    have hEmpty := Session.charted_empty ctx
    obtain ⟨v, hPrepare⟩ := prepareAll_of_visit hFunctions hu.faithful hEntry
    obtain ⟨v', hAlone⟩ := prepareAll_alone hFunctions hMemoize hCharted h c
    exact ⟨circular_of_circular hFunctions hMemoize hu hEmpty hPrepare hAlone,
      circular_of_circular hFunctions hMemoize hEmpty hu hAlone hPrepare⟩

end Resolver
end Spreadsheet
