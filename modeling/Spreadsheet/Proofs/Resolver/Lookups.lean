import Spreadsheet.Proofs.Resolver.Advance
import Spreadsheet.Proofs.Resolver.Cycle

/-!
# Counting lookups

How often a request looks up one cell and starts its formula. With the memory on, preparation does
so at most once for a cell, and so does the evaluation that follows. Afterwards the cell is settled,
unless it was put off because it reaches a cycle, or its failure ended the request.
-/

set_option autoImplicit false

namespace Spreadsheet

open Evaluation

namespace Journal

def isLookup (x : Coordinate) : Moment → Bool
  | .lookup c => c == x
  | _ => false

def isStart (x : Coordinate) : Moment → Bool
  | .start c => c == x
  | _ => false

/-- How often the grid was asked for a cell. -/
def lookups (x : Coordinate) (j : List Moment) : Nat := j.countP (isLookup x)

/-- How often the formula of a cell was evaluated. -/
def starts (x : Coordinate) (j : List Moment) : Nat := j.countP (isStart x)

variable {x c : Coordinate} {j : List Moment}

@[simp] theorem lookups_lookup :
    lookups x (.lookup c :: j) = lookups x j + if c = x then 1 else 0 := by
  simp [lookups, isLookup, List.countP_cons]

@[simp] theorem lookups_start : lookups x (.start c :: j) = lookups x j := by
  simp [lookups, isLookup]

@[simp] theorem lookups_finish : lookups x (.finish c :: j) = lookups x j := by
  simp [lookups, isLookup]

@[simp] theorem lookups_keep : lookups x (.keep c :: j) = lookups x j := by
  simp [lookups, isLookup]

@[simp] theorem starts_lookup : starts x (.lookup c :: j) = starts x j := by
  simp [starts, isStart]

@[simp] theorem starts_start :
    starts x (.start c :: j) = starts x j + if c = x then 1 else 0 := by
  simp [starts, isStart, List.countP_cons]

@[simp] theorem starts_finish : starts x (.finish c :: j) = starts x j := by
  simp [starts, isStart]

@[simp] theorem starts_keep : starts x (.keep c :: j) = starts x j := by
  simp [starts, isStart]

@[simp] theorem lookups_call (key : String) (arguments : List Value) :
    lookups x (.call key arguments :: j) = lookups x j := by
  simp [lookups, isLookup]

@[simp] theorem starts_call (key : String) (arguments : List Value) :
    starts x (.call key arguments :: j) = starts x j := by
  simp [starts, isStart]

theorem counts_calls {calls : List Moment} (hCalls : Resolver.AreCalls calls) :
    lookups x (calls ++ j) = lookups x j ∧ starts x (calls ++ j) = starts x j := by
  induction calls with
  | nil => exact ⟨rfl, rfl⟩
  | cons m calls ih =>
    obtain ⟨key, arguments, rfl⟩ := hCalls m List.mem_cons_self
    obtain ⟨hLookups, hStarts⟩ := ih fun m hm => hCalls m (List.mem_cons_of_mem _ hm)
    rw [List.cons_append, lookups_call, starts_call]
    exact ⟨hLookups, hStarts⟩

end Journal

namespace Resolver

variable {ctx : EvaluationContext} {s t u : Session} {w met roots : List Coordinate}
  {c x y : Coordinate} {text : String} {e : Failure} {U V K C : Coordinate → Prop}

/-! ## Failures that keep a cell from settling -/

/-- The formula cell may end in the failure without being settled: a cell with an address does not
record the failure, and it is circular only above a cycle. -/
structure GivesUp (ctx : EvaluationContext) (x : Coordinate) (e : Failure) : Prop where
  formula : ∃ text, formulaOf (ctx.grid.get? x) = some text
  unrecorded : x.isInGrid = true → ¬ Recursion.Recordable e
  circular : ∀ path, e = .formula (.circular path) →
    ReachesCycle ctx x ∨ ctx.functions.Reports (.circular path)

theorem GivesUp.not_formula (h : GivesUp ctx x e) (hFunctions : ctx.functions.ReportsNoCycle)
    (hx : ∀ text, formulaOf (ctx.grid.get? x) = some text → x.isInGrid = true)
    (hFree : ¬ ReachesCycle ctx x) (fault : FormulaFault) : e ≠ .formula fault := by
  rintro rfl
  obtain ⟨text, hText⟩ := h.formula
  cases hCircular : fault.isCircular with
  | false => exact h.unrecorded (hx text hText) ⟨fault, rfl, hCircular⟩
  | true =>
    obtain ⟨path, rfl⟩ : ∃ path, fault = .circular path := by
      cases fault with
      | circular path => exact ⟨path, rfl⟩
      | _ => cases hCircular
    rcases h.circular path rfl with hCycle | hReports
    · exact hFree hCycle
    · exact hFunctions.not_reports path hReports

theorem isInGrid_of_isAddressable (h : x.IsAddressable) : x.isInGrid = true := by
  simp [Coordinate.isInGrid, h.1, h.2.1]

theorem not_recordable_of_settledCell {v : Except Failure Value}
    (h : settledCell c text v = .error e) (hc : c.isInGrid = true) : ¬ Recursion.Recordable e := by
  rcases settledCell_error h with ⟨-, hNot⟩ | hAddress
  · exact hNot
  · rcases Coordinate.toAddress_error hAddress with ⟨fault, rfl⟩ | ⟨hOutside, -⟩
    · rintro ⟨fault', hFault, -⟩
      cases hFault
    · rw [hc] at hOutside
      cases hOutside

theorem GivesUp.of_breaks (h : Breaks ctx c e) (hText : formulaOf (ctx.grid.get? x) = some text)
    (hx : x.isInGrid = true → c.isInGrid = true) : GivesUp ctx x e where
  formula := ⟨text, hText⟩
  unrecorded hGrid := by
    cases h with
    | unreadable hText =>
      rintro ⟨fault, rfl, -⟩
      exact textReferences_ne_formula _ _ hText
    | failed _ hCell => exact not_recordable_of_settledCell hCell (hx hGrid)
  circular path hPath := by
    rcases CycleFault.of_breaks (T := fun _ => False) h path hPath with ⟨-, _, -, hFalse⟩ | hReports
    · exact hFalse.elim
    · exact .inr hReports

/-! ## Single visits -/

/-- The cell was left alone. -/
structure Spares (x : Coordinate) (s t : Session) : Prop where
  lookups : Journal.lookups x t.journal = Journal.lookups x s.journal
  starts : Journal.starts x t.journal = Journal.starts x s.journal

/-- The cell was looked up once, not having been settled before. -/
structure Takes (x : Coordinate) (s t : Session) : Prop where
  unsettled : x ∉ s.settled
  lookups : Journal.lookups x t.journal = Journal.lookups x s.journal + 1
  starts : Journal.starts x t.journal ≤ Journal.starts x s.journal + 1

theorem Spares.refl (x : Coordinate) (s : Session) : Spares x s s := ⟨rfl, rfl⟩

theorem Spares.trans (h : Spares x s t) (h' : Spares x t u) : Spares x s u :=
  ⟨h'.lookups.trans h.lookups, h'.starts.trans h.starts⟩

theorem Takes.spares (h : Takes x s t) (h' : Spares x t u) : Takes x s u :=
  ⟨h.unsettled, by rw [h'.lookups, h.lookups], by rw [h'.starts]; exact h.starts⟩

theorem Spares.takes (h : Spares x s t) (h' : Takes x t u)
    (hGrows : ∀ {y}, y ∈ s.settled → y ∈ t.settled) : Takes x s u :=
  ⟨fun hx => h'.unsettled (hGrows hx), by rw [h'.lookups, h.lookups], by
    rw [← h.starts]
    exact h'.starts⟩

theorem spares_lookup (s : Session) (h : c ≠ x) : Spares x s (s.noted (.lookup c)) :=
  ⟨by simp [Session.noted, h], by simp [Session.noted]⟩

theorem spares_kept (s : Session) (cell : Option Cell) : Spares x s (s.kept c cell) :=
  ⟨by simp [Session.kept], by simp [Session.kept]⟩

theorem spares_start (s : Session) (h : c ≠ x) : Spares x s (s.noted (.start c)) :=
  ⟨by simp [Session.noted], by simp [Session.noted, h]⟩

theorem spares_finish (s : Session) : Spares x s (s.noted (.finish c)) :=
  ⟨by simp [Session.noted], by simp [Session.noted]⟩

theorem spares_call (s : Session) (key : String) (arguments : List Value) :
    Spares x s (s.noted (.call key arguments)) :=
  ⟨by simp [Session.noted], by simp [Session.noted]⟩

theorem takes_started (h : x ∉ s.settled) :
    Takes x s ((s.noted (.lookup x)).noted (.start x)) :=
  ⟨h, by simp [Session.noted], by simp [Session.noted]⟩

theorem takes_lookup (h : x ∉ s.settled) : Takes x s (s.noted (.lookup x)) :=
  ⟨h, by simp [Session.noted], by simp [Session.noted]⟩

/-! ## Walks -/

variable {met₁ : List Coordinate} {r : Except Failure (List Coordinate)}

theorem Computes.counts {v : Except Failure Value} (h : Computes ctx c s v t) (x : Coordinate) :
    Journal.lookups x t.journal = Journal.lookups x s.journal ∧
      Journal.starts x t.journal = Journal.starts x s.journal + if c = x then 1 else 0 := by
  obtain ⟨-, ⟨calls, hJournal, hCalls⟩, -⟩ := h
  obtain ⟨hLookups, hStarts⟩ :=
    Journal.counts_calls (x := x) (j := .start c :: s.journal) hCalls
  rw [hJournal, Journal.lookups_finish, Journal.starts_finish, hLookups, hStarts]
  simp

theorem Computes.spares {v : Except Failure Value} (h : Computes ctx c s v t) (hx : c ≠ x) :
    Spares x s t := by
  obtain ⟨hLookups, hStarts⟩ := h.counts x
  rw [if_neg hx] at hStarts
  exact ⟨hLookups, hStarts⟩

/-- How a walk leaves a cell that it looked up. -/
inductive Leaves (ctx : EvaluationContext) (x : Coordinate) (t : Session)
    (r : Except Failure (List Coordinate)) : Prop
  | settled (h : x ∈ t.settled)
  | putOff (hCycle : ReachesCycle ctx x) (hMet : ∀ met, r = .ok met → x ∈ met)
  | givenUp (e : Failure) (he : r = .error e) (h : GivesUp ctx x e)

/-- A walk leaves a cell alone, or looks it up once and leaves it in one of these ways. -/
inductive Visits (ctx : EvaluationContext) (x : Coordinate) (met : List Coordinate) (s : Session)
    (r : Except Failure (List Coordinate)) (t : Session) : Prop
  | spared (h : Spares x s t)
  | taken (h : Takes x s t) (hMet : x ∉ met) (hLeaves : Leaves ctx x t r)

theorem Visits.spares_of_met (h : Visits ctx x met s r t) (hx : x ∈ met) : Spares x s t := by
  cases h with
  | spared h => exact h
  | taken _ hMet => exact absurd hx hMet

theorem Visits.spares_of_settled (h : Visits ctx x met s r t) (hx : x ∈ s.settled) :
    Spares x s t := by
  cases h with
  | spared h => exact h
  | taken h => exact absurd hx h.unsettled

theorem Spares.visits (h : Spares x s t) (h' : Visits ctx x met₁ t r u)
    (hGrows : ∀ {y}, y ∈ s.settled → y ∈ t.settled) (hMet : met ⊆ met₁) :
    Visits ctx x met s r u := by
  cases h' with
  | spared h' => exact .spared (h.trans h')
  | taken h' hNew hLeaves => exact .taken (h.takes h' hGrows) (fun hx => hNew (hMet hx)) hLeaves

/-- One part of a walk after the other. -/
theorem Visits.andThen (h : Visits ctx x met s (.ok met₁) t) (h' : Visits ctx x met₁ t r u)
    (hs : ∀ {y}, y ∈ s.settled → y ∈ t.settled) (ht : ∀ {y}, y ∈ t.settled → y ∈ u.settled)
    (hMet : met ⊆ met₁) (hMet' : ∀ met', r = .ok met' → met₁ ⊆ met') :
    Visits ctx x met s r u := by
  cases h with
  | spared h => exact h.visits h' hs hMet
  | taken h hNew hLeaves =>
    cases hLeaves with
    | settled hx => exact .taken (h.spares (h'.spares_of_settled hx)) hNew (.settled (ht hx))
    | putOff hCycle hPut =>
      have hx := hPut met₁ rfl
      exact .taken (h.spares (h'.spares_of_met hx)) hNew
        (.putOff hCycle fun met' hr => hMet' met' hr hx)
    | givenUp e he => cases he

theorem Visits.enter (h : Visits ctx x (c :: met) (s.noted (.lookup c)) r t) (hx : c ≠ x) :
    Visits ctx x met s r t :=
  (spares_lookup s hx).visits h (fun hy => hy) (List.subset_cons_self c met)

theorem Enters.takes {refs : List Coordinate} (h : Enters ctx met s c text refs)
    (hBelow : Visits ctx c (c :: met) (s.noted (.lookup c)) r t) : Takes c s t :=
  (takes_lookup h.fresh.unsettled).spares (hBelow.spares_of_met List.mem_cons_self)

theorem Enters.takes_computed {refs : List Coordinate} {v : Except Failure Value}
    (h : Enters ctx met s c text refs)
    (hBelow : Visits ctx c (c :: met) (s.noted (.lookup c)) r t) (hRun : Computes ctx c t v u) :
    Takes c s u := by
  have hSpares := hBelow.spares_of_met List.mem_cons_self
  obtain ⟨hLookups, hStarts⟩ := hRun.counts c
  refine ⟨h.fresh.unsettled, ?_, ?_⟩
  · rw [hLookups, hSpares.lookups]
    simp [Session.noted]
  · rw [hStarts, hSpares.starts]
    simp [Session.noted]

theorem Walk.visits (h : Walk ctx met s roots r t) (x : Coordinate) : Visits ctx x met s r t := by
  -- for the cell that is entered, the walk below it has met it and so spares it; for the others the
  -- visits of the two parts are put together
  induction h with
  | done => exact .spared (.refl x _)
  | skip _ _ ih => exact ih
  | @literal met cs s t c r hFresh hText rest ih =>
    by_cases hx : c = x
    · subst hx
      have hKept : c ∈ ((s.noted (.lookup c)).kept c (ctx.grid.get? c)).settled :=
        Session.mem_kept.mpr (.inl rfl)
      have hTakes := (takes_lookup hFresh.unsettled).spares
        ((spares_kept _ _).trans (ih.spares_of_settled hKept))
      exact .taken hTakes hFresh.idle (.settled (rest.mem_grows hKept))
    · exact ((spares_lookup s hx).trans (spares_kept _ _)).visits ih
        (fun hy => Session.mem_kept.mpr (.inr hy)) (List.Subset.refl met)
  | @unreadable met cs s c text e hFresh hText h =>
    by_cases hx : c = x
    · subst hx
      exact .taken (takes_lookup hFresh.unsettled) hFresh.idle
        (.givenUp e rfl (.of_breaks (.unreadable h) hText id))
    · exact .spared (spares_lookup s hx)
  | @stuck met cs refs s t c text e h below ih =>
    by_cases hx : c = x
    · subst hx
      obtain ⟨y, hy, hBreaks⟩ := below.breaks rfl
      have hAddress : y.IsAddressable :=
        hy.elim (fun hMem => (h.mem_references.mp hMem).isAddressable) id
      exact .taken (h.takes ih) h.fresh.idle
        (.givenUp e rfl (.of_breaks hBreaks h.formula fun _ => isInGrid_of_isAddressable hAddress))
    · exact ih.enter hx
  | @putOff met cs refs met₁ s t u c text r h below hCycle rest ihBelow ihRest =>
    have hMet : met ⊆ met₁ := fun y hy => below.met_subset rfl (List.mem_cons_of_mem c hy)
    by_cases hx : c = x
    · subst hx
      have hPut : c ∈ met₁ := below.met_subset rfl List.mem_cons_self
      exact .taken ((h.takes ihBelow).spares (ihRest.spares_of_met hPut)) h.fresh.idle
        (.putOff hCycle fun met' hr => rest.met_subset hr hPut)
    · exact (ihBelow.enter hx).andThen ihRest below.mem_grows rest.mem_grows hMet
        fun met' hr => rest.met_subset hr
  | @failed met cs refs met₁ s t u c text v e h below hAll hRun hCell ih =>
    have hMet : met ⊆ met₁ := fun y hy => below.met_subset rfl (List.mem_cons_of_mem c hy)
    by_cases hx : c = x
    · subst hx
      exact .taken (h.takes_computed ih hRun) h.fresh.idle
        (.givenUp e rfl (.of_breaks (.failed hRun hCell) h.formula id))
    · exact (ih.enter hx).andThen (.spared (hRun.spares hx)) below.mem_grows
        (fun hy => by rwa [hRun.settled]) hMet (by simp)
  | @settled met cs refs met₁ s t u z c text v cell r h below hAll hRun hCell rest ihBelow ihRest =>
    have hMet : met ⊆ met₁ := fun y hy => below.met_subset rfl (List.mem_cons_of_mem c hy)
    have hGrows : ∀ {y}, y ∈ t.settled → y ∈ (u.kept c (some cell)).settled := fun hy =>
      Session.mem_kept.mpr (.inr (hRun.settled ▸ hy))
    by_cases hx : c = x
    · subst hx
      have hKept : c ∈ (u.kept c (some cell)).settled := Session.mem_kept.mpr (.inl rfl)
      have hTakes := (h.takes_computed ihBelow hRun).spares
        ((spares_kept _ _).trans (ihRest.spares_of_settled hKept))
      exact .taken hTakes h.fresh.idle (.settled (rest.mem_grows hKept))
    · have hRest := ((hRun.spares hx).trans (spares_kept _ _)).visits ihRest hGrows
        (List.Subset.refl met₁)
      exact (ihBelow.enter hx).andThen hRest below.mem_grows
        (fun hy => rest.mem_grows (hGrows hy)) hMet fun met' hr => rest.met_subset hr

/-! ## Requests for covered cells -/

/-- How a request for covered cells treats one cell while some cells wait: the cell is left alone,
or looked up once and then settled, unless its failure ends the request. -/
inductive Meets (ctx : EvaluationContext) (V : Coordinate → Prop) (x : Coordinate)
    (w : List Coordinate) (s : Session) (o : Option Failure) (t : Session) : Prop
  | spared (h : Spares x s t)
  | settled (h : Takes x s t) (hw : x ∉ w) (hV : V x) (hx : x ∈ t.settled)
  | failed (h : Takes x s t) (hw : x ∉ w) (hV : V x) (e : Failure) (he : o = some e)
      (hGivesUp : GivesUp ctx x e) (hInner : w ≠ [] → ¬ Recursion.Recordable e)

variable {o o' : Option Failure}

theorem Meets.spares_of_waiting (h : Meets ctx V x w s o t) (hx : x ∈ w) : Spares x s t := by
  cases h with
  | spared h => exact h
  | settled _ hw => exact absurd hx hw
  | failed _ hw => exact absurd hx hw

theorem Meets.leave (h : Meets ctx V x (c :: w) s o t) (hSpares : Spares x t u)
    (hGrows : ∀ {y}, y ∈ t.settled → y ∈ u.settled)
    (ho : ∀ e, o = some e → ¬ Recursion.Recordable e → o' = some e) :
    Meets ctx V x w s o' u := by
  cases h with
  | spared h => exact .spared (h.trans hSpares)
  | settled h hw hV hx =>
    exact .settled (h.spares hSpares) (List.not_mem_of_not_mem_cons hw) hV (hGrows hx)
  | failed h hw hV e he hGivesUp hInner =>
    have hNot := hInner (List.cons_ne_nil c w)
    exact .failed (h.spares hSpares) (List.not_mem_of_not_mem_cons hw) hV e (ho e he hNot)
      hGivesUp fun _ => hNot

theorem Spares.meets (h : Spares x s t) (h' : Meets ctx V x w t o u)
    (hGrows : ∀ {y}, y ∈ s.settled → y ∈ t.settled) : Meets ctx V x w s o u := by
  cases h' with
  | spared h' => exact .spared (h.trans h')
  | settled h' hw hV hx => exact .settled (h.takes h' hGrows) hw hV hx
  | failed h' hw hV e he hGivesUp hInner =>
    exact .failed (h.takes h' hGrows) hw hV e he hGivesUp hInner

theorem Meets.trans (h : Meets ctx V x w s none t) (h' : Meets ctx V x w t o u)
    (hs : ∀ {y}, y ∈ s.settled → y ∈ t.settled) (ht : ∀ {y}, y ∈ t.settled → y ∈ u.settled) :
    Meets ctx V x w s o u := by
  cases h with
  | spared h => exact h.meets h' hs
  | settled h hw hV hx =>
    have hSpares : Spares x t u := by
      cases h' with
      | spared h' => exact h'
      | settled h' => exact absurd hx h'.unsettled
      | failed h' => exact absurd hx h'.unsettled
    exact .settled (h.spares hSpares) hw hV (ht hx)
  | failed _ _ _ e he => cases he

/-- The passage of requests for covered cells, as one cell sees it. -/
def meeting (ctx : EvaluationContext) (V K : Coordinate → Prop) (x : Coordinate)
    (w : List Coordinate) : Passage Session := fun s o t =>
  (∀ y, K y → y ∈ s.settled) →
    (∀ y, y ∈ s.settled → y ∈ t.settled) ∧ Meets ctx V x w s o t

theorem meeting_evaluates (x : Coordinate) (w : List Coordinate) :
    Evaluates ctx (meeting ctx V K x w) where
  composes := {
    refl := fun s _ => ⟨fun _ hy => hy, .spared (.refl x s)⟩
    trans := by
      intro s t u o hFirst hSecond hK
      obtain ⟨hs, hMeets⟩ := hFirst hK
      obtain ⟨ht, hMeets'⟩ := hSecond fun y hy => hs y (hK y hy)
      exact ⟨fun y hy => ht y (hs y hy), hMeets.trans hMeets' (hs _) (ht _)⟩ }
  own := fun _ s _ => ⟨fun _ hy => hy, .spared (.refl x s)⟩
  parsing := fun s _ => ⟨fun _ hy => hy, .spared (.refl x s)⟩
  call := fun s _ _ _ => ⟨fun _ hy => hy, .spared (spares_call s _ _)⟩

/-- What is asked of a request for a covered cell: the waiting cells form a trail to it, and if
there are any the cell lies in the grid. -/
structure IsAsked (ctx : EvaluationContext) (C : Coordinate → Prop) (w : List Coordinate)
    (c : Coordinate) : Prop where
  covered : C c
  trail : Trail ctx w c
  inGrid : w ≠ [] → c.isInGrid = true

theorem GivesUp.of_settledCell {v : Except Failure Value} (h : settledCell c text v = .error e)
    (hText : formulaOf (ctx.grid.get? c) = some text)
    (hCircular : CycleFault ctx (Reaches ctx c) e) : GivesUp ctx c e where
  formula := ⟨text, hText⟩
  unrecorded := not_recordable_of_settledCell h
  circular path hPath := by
    rcases hCircular path hPath with ⟨hCycle, z, hHead, hReach⟩ | hReports
    · exact .inl ⟨z, hReach, hCycle.onCycle hHead⟩
    · exact .inr hReports

theorem meeting_tracks (hOn : ctx.memoize = true) (h : Cover ctx U V K C) (x : Coordinate) :
    Tracks ctx (IsAsked ctx C) (fun c => CycleFault ctx (Reaches ctx c)) (meeting ctx V K x) where
  evaluates := meeting_evaluates x
  circular s _ _ _ := ⟨fun _ hy => hy, .spared (.refl x s)⟩
  literal := by
    intro w c s hAsked hFresh hText hK
    rw [Session.answered, if_pos hOn]
    refine ⟨fun y hy => Session.mem_kept.mpr (.inr hy), ?_⟩
    by_cases hx : c = x
    · subst hx
      exact .settled ((takes_lookup hFresh.unsettled).spares (spares_kept _ _)) hFresh.idle
        (h.waits c hAsked.covered fun hc => hFresh.unsettled (hK c hc))
        (Session.mem_kept.mpr (.inl rfl))
    · exact .spared ((spares_lookup s hx).trans (spares_kept _ _))
  tooDeep := by
    intro w c s text hAsked hFresh hText hK
    refine ⟨fun _ hy => hy, ?_⟩
    by_cases hx : c = x
    · subst hx
      have hNot : ¬ Recursion.Recordable .tooDeep := by
        rintro ⟨fault, hFault, -⟩
        cases hFault
      exact .failed (takes_lookup hFresh.unsettled) hFresh.idle
        (h.waits c hAsked.covered fun hc => hFresh.unsettled (hK c hc)) .tooDeep rfl
        ⟨⟨text, hText⟩, fun _ => hNot, nofun⟩ fun _ => hNot
    · exact .spared (spares_lookup s hx)
  formula := by
    intro w c s t text v hAsked hFresh hText hBody hFails
    -- whatever the cell settles to, it waits while its formula runs and is spared by it; a failure
    -- below that no cell records is the failure of this cell too
    have hPassage : ∀ {o' : Option Failure} {u : Session}, Spares x t u →
        (∀ {y}, y ∈ t.settled → y ∈ u.settled) →
        (∀ e, failureOf v = some e → ¬ Recursion.Recordable e → o' = some e) →
        (c ∈ u.settled ∨ ∃ e, o' = some e ∧ settledCell c text v = .error e) →
        meeting ctx V K x w s o' u := by
      intro o' u hSpares hGrows hOther hSelf hK
      have hNot : ¬ K c := fun hc => hFresh.unsettled (hK c hc)
      have hV := h.waits c hAsked.covered hNot
      obtain ⟨hBelow, hMeets⟩ := ends_ended.mp (hBody fun z hz =>
        { covered := h.refers c z hAsked.covered hNot hz
          trail := hAsked.trail.cons hFresh.idle hz
          inGrid := fun _ => isInGrid_of_isAddressable hz.isAddressable }) hK
      refine ⟨fun y hy => hGrows (hBelow y hy), ?_⟩
      by_cases hx : c = x
      · subst hx
        have hTakes := ((takes_started hFresh.unsettled).spares
          (hMeets.spares_of_waiting List.mem_cons_self)).spares hSpares
        rcases hSelf with hSettled | ⟨e, he, hCell⟩
        · exact .settled hTakes hFresh.idle hV hSettled
        · exact .failed hTakes hFresh.idle hV e he (.of_settledCell hCell hText (hFails e hCell))
            fun hw => not_recordable_of_settledCell hCell (hAsked.inGrid hw)
      · have hStarted := (spares_lookup s hx).trans (spares_start _ hx)
        exact (hStarted.meets hMeets fun hy => hy).leave hSpares hGrows hOther
    cases hCell : settledCell c text v with
    | ok cell =>
      change meeting ctx V K x w s none ((t.noted (.finish c)).answered ctx.memoize c (some cell))
      rw [Session.answered, if_pos hOn]
      refine hPassage ((spares_finish t).trans (spares_kept _ _))
        (fun hy => Session.mem_kept.mpr (.inr hy)) (fun e he hNot => ?_)
        (.inl (Session.mem_kept.mpr (.inl rfl)))
      rw [failureOf_eq_some.mp he, Recursion.settledCell_of_not_recordable hNot] at hCell
      cases hCell
    | error e =>
      refine hPassage (spares_finish t) (fun hy => hy) (fun e' he hNot => ?_) (.inr ⟨e, rfl, hCell⟩)
      rw [failureOf_eq_some.mp he, Recursion.settledCell_of_not_recordable hNot] at hCell
      cases hCell
      rfl

theorem resolve_meeting (hOn : ctx.memoize = true) (h : Cover ctx U V K C) (d : Nat)
    (hc : IsAsked ctx C w c) (x : Coordinate) :
    Leads (meeting ctx V K x w) (resolve ctx d w c) := by
  refine (meeting_tracks hOn h x).resolve (fun d w c hAsked => ?_) d hc
  exact resolve_cycleFault d hAsked.trail .refl fun _ _ hx hxy => hx.tail hxy

end Resolver
end Spreadsheet
