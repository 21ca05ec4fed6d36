import Spreadsheet.Proofs.Resolver.Clean
import Spreadsheet.Proofs.Resolver.Lookups

/-!
# Cells are looked up and computed once

A session with memory looks up a cell that reaches no cycle once and evaluates its formula once,
whatever it is asked, as long as requests end well. Cells on or above a cycle are never settled; a
single request looks up even these at most twice, once for the preparation and once for the cycle.
-/

set_option autoImplicit false

namespace Spreadsheet

open Evaluation

namespace Resolver

variable {ctx : EvaluationContext} {s t : Session} {c x : Coordinate} {roots : List Coordinate}

/-- An evaluation ends with a result or with a fault of a formula. -/
def EndsWell {α : Type} (a : Except Failure α) : Prop :=
  ∀ e, a = .error e → ∃ fault, e = .formula fault

/-- The cell was looked up and started at most once, and not at all if it is not settled. -/
structure IsCountedOnce (x : Coordinate) (s : Session) : Prop where
  lookups : Journal.lookups x s.journal ≤ 1
  starts : Journal.starts x s.journal ≤ 1
  unsettled : x ∉ s.settled →
    Journal.lookups x s.journal = 0 ∧ Journal.starts x s.journal = 0

theorem IsCountedOnce.spares (h : IsCountedOnce x s) (hSpares : Spares x s t)
    (hGrows : x ∈ s.settled → x ∈ t.settled) : IsCountedOnce x t := by
  constructor
  · rw [hSpares.lookups]
    exact h.lookups
  · rw [hSpares.starts]
    exact h.starts
  · rw [hSpares.lookups, hSpares.starts]
    exact fun hx => h.unsettled fun hSettled => hx (hGrows hSettled)

theorem IsCountedOnce.takes (h : IsCountedOnce x s) (hTakes : Takes x s t) (hx : x ∈ t.settled) :
    IsCountedOnce x t := by
  obtain ⟨hLookups, hStarts⟩ := h.unsettled hTakes.unsettled
  constructor
  · rw [hTakes.lookups, hLookups]
  · have hOnce := hTakes.starts
    rwa [hStarts] at hOnce
  · exact fun hNot => absurd hx hNot

theorem endsWell_of_evaluateEntry {entry : Coordinate × Cell}
    (h : EndsWell ((evaluateEntry ctx entry).outcome s)) :
    EndsWell ((evaluateCell ctx entry.1).outcome s) := by
  rw [outcome_of_ended (evaluateEntry_run entry s)] at h
  intro e he
  rw [he] at h
  cases e with
  | formula fault => exact ⟨fault, rfl⟩
  | numeric fault => exact h _ rfl
  | tooDeep => exact h _ rfl

/-! ## Evaluations that are served -/

theorem resolveCell_meeting (hOn : ctx.memoize = true) {U V K C : Coordinate → Prop}
    (hCover : Cover ctx U V K C) (hc : C c) (x : Coordinate) :
    Leads (meeting ctx V K x []) (resolveCell ctx c) :=
  resolve_meeting hOn hCover _ ⟨hc, trail_nil c, fun hw => absurd rfl hw⟩ x

theorem formula_meeting (hOn : ctx.memoize = true) {f : Formula}
    (hReferences : f.references ctx.rangeLimit = .ok roots) {U V K C : Coordinate → Prop}
    (hCover : Cover ctx U V K C) (hC : ∀ z ∈ roots, C z) (x : Coordinate) :
    Leads (meeting ctx V K x []) (f.evaluate (surroundings ctx (resolveCell ctx))) :=
  (meeting_evaluates x []).formula fun z hz =>
    resolveCell_meeting hOn hCover (hC z ((f.mem_references hReferences).mpr hz)) x

/-! ## Cells that reach no cycle -/

section Once

variable (hOn : ctx.memoize = true) (hFunctions : ctx.functions.ReportsNoCycle)
  (hGrid : ∀ text, formulaOf (ctx.grid.get? x) = some text → x.isInGrid = true)
  (hFree : ¬ ReachesCycle ctx x)

include hFunctions hGrid hFree in
theorem Walk.isCountedOnce {r : Except Failure (List Coordinate)} {met : List Coordinate}
    (h : Walk ctx met s roots r t) (hEnds : EndsWell r) (hs : IsCountedOnce x s) :
    IsCountedOnce x t := by
  cases h.visits x with
  | spared hSpares => exact hs.spares hSpares h.mem_grows
  | taken hTakes _ hLeaves =>
    cases hLeaves with
    | settled hx => exact hs.takes hTakes hx
    | putOff hCycle => exact absurd hCycle hFree
    | givenUp e he hGivesUp =>
      obtain ⟨fault, rfl⟩ := hEnds e he
      exact absurd rfl (hGivesUp.not_formula hFunctions hGrid hFree fault)

include hOn hFunctions hGrid hFree

theorem Serves.isCountedOnce {α : Type} {y : Step α} {address : Except Failure (Option String)}
    {a : Except Failure α} (h : Serves ctx roots address y s a t) (hEnds : EndsWell a)
    (hy : ∀ V K C, Cover ctx (fun _ => True) V K C → (∀ z ∈ roots, C z) →
      Leads (meeting ctx V K x []) y)
    (hs : IsCountedOnce x s) : IsCountedOnce x t := by
  cases h with
  | atOnce hOff =>
    rw [hOn] at hOff
    cases hOff
  | refused _ walk =>
    refine walk.isCountedOnce hFunctions hGrid hFree ?_ hs
    rintro _ ⟨⟩
    exact hEnds _ rfl
  | @walked met b u t _ walk _ hRun =>
    have hMid := walk.isCountedOnce hFunctions hGrid hFree nofun hs
    -- from here on only cells above a cycle are looked up
    have hCover := walk.cover (U := fun _ => True) (V := ReachesCycle ctx)
      (fun _ _ _ _ => trivial) fun _ _ hCycle => hCycle
    have hMeets := hy _ _ _ hCover (fun z hz => ⟨trivial, walk.roots_known rfl hz⟩) u
    rw [hRun] at hMeets
    obtain ⟨hGrows, hMeets⟩ := ends_ended.mp hMeets fun _ hz => hz
    cases hMeets with
    | spared hSpares => exact hMid.spares hSpares (hGrows x)
    | settled _ _ hCycle => exact absurd hCycle hFree
    | failed _ _ hCycle => exact absurd hCycle hFree

theorem evaluateCell_isCountedOnce (hFaithful : s.Faithful ctx)
    (hEnds : EndsWell ((evaluateCell ctx c).outcome s)) (hs : IsCountedOnce x s) :
    IsCountedOnce x ((evaluateCell ctx c).final s) := by
  obtain ⟨a, t, hRun⟩ := exists_ended (evaluateCell ctx c) s
  rw [outcome_of_ended hRun] at hEnds
  rw [final_of_ended hRun]
  exact (evaluateCell_serves hFaithful hRun).isCountedOnce hOn hFunctions hGrid hFree hEnds
    (fun _ _ _ hCover hC => resolveCell_meeting hOn hCover (hC c List.mem_cons_self) x) hs

theorem evaluate_isCountedOnce (hFaithful : s.Faithful ctx) {f : Formula}
    (hEnds : EndsWell ((evaluate ctx f).outcome s)) (hs : IsCountedOnce x s) :
    IsCountedOnce x ((evaluate ctx f).final s) := by
  cases hReferences : f.references ctx.rangeLimit with
  | error e =>
    rwa [final_of_error (evaluate_of_references_error hReferences s)]
  | ok roots =>
    obtain ⟨a, t, hRun⟩ := exists_ended (evaluate ctx f) s
    rw [outcome_of_ended hRun] at hEnds
    rw [final_of_ended hRun]
    exact (evaluate_serves hFaithful hReferences hRun).isCountedOnce hOn hFunctions hGrid hFree
      hEnds (fun _ _ _ hCover hC => formula_meeting hOn hReferences hCover hC x) hs

/-- Without preparation the failure of a cell that reaches no cycle ends the request badly. -/
theorem resolveCell_isCountedOnce (hEnds : EndsWell ((resolveCell ctx c).outcome s))
    (hs : IsCountedOnce x s) : IsCountedOnce x ((resolveCell ctx c).final s) := by
  have hMeets := resolveCell_meeting (c := c) hOn (cover_all ctx) trivial x s
  obtain ⟨a, t, hRun⟩ := exists_ended (resolveCell ctx c) s
  rw [outcome_of_ended hRun] at hEnds
  rw [final_of_ended hRun]
  rw [hRun] at hMeets
  obtain ⟨hGrows, hMeets⟩ := ends_ended.mp hMeets fun _ => False.elim
  -- here the cell may wait for others, and what it fails with is what the request ends in
  cases hMeets with
  | spared hSpares => exact hs.spares hSpares (hGrows x)
  | settled hTakes _ _ hx => exact hs.takes hTakes hx
  | failed _ _ _ e he hGivesUp =>
    obtain ⟨fault, rfl⟩ := hEnds e (failureOf_eq_some.mp he)
    exact absurd rfl (hGivesUp.not_formula hFunctions hGrid hFree fault)

theorem evaluateEntries_isCountedOnce (hFaithful : s.Faithful ctx)
    {entries : List (Coordinate × Cell)} {a : Except Failure (List (Coordinate × Cell))}
    (hRun : evaluateEntries ctx entries s = ended a t) (hEnds : EndsWell a)
    (hs : IsCountedOnce x s) : IsCountedOnce x t := by
  induction entries generalizing s a with
  | nil =>
    obtain ⟨rfl, rfl⟩ := eq_of_ended_ok hRun
    exact hs
  | cons entry rest ih =>
    have hCell : EndsWell ((evaluateEntry ctx entry).outcome s) →
        IsCountedOnce x ((evaluateCell ctx entry.1).final s) := fun hEntry =>
      evaluateCell_isCountedOnce hOn hFunctions hGrid hFree hFaithful
        (endsWell_of_evaluateEntry hEntry) hs
    rcases evaluateEntries_cons_run hRun with
      ⟨e, rfl, hEntry⟩ | ⟨y, u, b, hEntry, hRest, rfl⟩
    · rw [(evaluateEntry_error hEntry).2]
      refine hCell ?_
      rw [outcome_of_error hEntry]
      rintro _ ⟨⟩
      exact hEnds _ rfl
    · obtain ⟨-, rfl⟩ := evaluateEntry_ok hEntry
      refine ih (evaluateCell_final_faithful hFaithful entry.1) hRest ?_
        (hCell (by rw [outcome_of_ok hEntry]; exact nofun))
      intro e he
      exact hEnds e (by rw [he]; rfl)

theorem Request.isCountedOnce (r : Request) (hFaithful : s.Faithful ctx)
    (hEnds : EndsWell ((r.run ctx).outcome s)) (hs : IsCountedOnce x s) :
    IsCountedOnce x ((r.run ctx).final s) := by
  have hInner : ∀ {α β : Type} {f : α → β} {y : Step α},
      EndsWell ((f <$> y).outcome s) → EndsWell (y.outcome s) := by
    intro α β f y h e he
    exact h e (by rw [outcome_map, he]; rfl)
  cases r with
  | value f =>
    rw [Request.run, final_map]
    exact evaluate_isCountedOnce hOn hFunctions hGrid hFree hFaithful (hInner hEnds) hs
  | cell c =>
    rw [Request.run, final_map]
    exact evaluateCell_isCountedOnce hOn hFunctions hGrid hFree hFaithful (hInner hEnds) hs
  | resolve c =>
    rw [Request.run, final_map]
    exact resolveCell_isCountedOnce hOn hFunctions hGrid hFree (hInner hEnds) hs
  | pass =>
    rw [Request.run, final_map]
    obtain ⟨a, t, hRun⟩ := exists_ended (evaluateEntries ctx ctx.grid.entries) s
    have hPass := hInner hEnds
    rw [evaluateGrid, outcome_of_ended hRun] at hPass
    rw [evaluateGrid, final_of_ended hRun]
    exact evaluateEntries_isCountedOnce hOn hFunctions hGrid hFree hFaithful hRun hPass hs

end Once

/-! ## All cells

A request looks up each cell at most once to prepare it, and at most once to find its cycle.
-/

theorem Visits.lookups_le {r : Except Failure (List Coordinate)} {met : List Coordinate}
    (h : Visits ctx x met s r t) :
    Journal.lookups x t.journal ≤ Journal.lookups x s.journal + 1 := by
  cases h with
  | spared h => rw [h.lookups]; omega
  | taken h => rw [h.lookups]

theorem Meets.lookups_le {V : Coordinate → Prop} {w : List Coordinate} {o : Option Failure}
    (h : Meets ctx V x w s o t) :
    Journal.lookups x t.journal ≤ Journal.lookups x s.journal + 1 := by
  cases h with
  | spared h => rw [h.lookups]; omega
  | settled h => rw [h.lookups]
  | failed h => rw [h.lookups]

section Twice

variable (hOn : ctx.memoize = true)

include hOn

theorem Serves.lookups_le {α : Type} {y : Step α} {address : Except Failure (Option String)}
    {a : Except Failure α} (h : Serves ctx roots address y s a t)
    (hy : Leads (meeting ctx (fun _ => True) (fun _ => False) x []) y) :
    Journal.lookups x t.journal ≤ Journal.lookups x s.journal + 2 := by
  cases h with
  | atOnce hOff =>
    rw [hOn] at hOff
    cases hOff
  | refused _ walk =>
    have hWalk := (walk.visits x).lookups_le
    omega
  | @walked met b u t _ walk _ hRun =>
    have hWalk := (walk.visits x).lookups_le
    have hMeets := hy u
    rw [hRun] at hMeets
    have hInner := (ends_ended.mp hMeets fun _ => False.elim).2.lookups_le
    omega

theorem evaluateCell_lookups_le (hFaithful : s.Faithful ctx) (c x : Coordinate) :
    Journal.lookups x ((evaluateCell ctx c).final s).journal ≤
      Journal.lookups x s.journal + 2 := by
  obtain ⟨a, t, hRun⟩ := exists_ended (evaluateCell ctx c) s
  rw [final_of_ended hRun]
  exact (evaluateCell_serves hFaithful hRun).lookups_le hOn
    (resolveCell_meeting hOn (cover_all ctx) trivial x)

theorem evaluate_lookups_le (hFaithful : s.Faithful ctx) (f : Formula) (x : Coordinate) :
    Journal.lookups x ((evaluate ctx f).final s).journal ≤ Journal.lookups x s.journal + 2 := by
  cases hReferences : f.references ctx.rangeLimit with
  | error e =>
    rw [final_of_error (evaluate_of_references_error hReferences s)]
    omega
  | ok roots =>
    obtain ⟨a, t, hRun⟩ := exists_ended (evaluate ctx f) s
    rw [final_of_ended hRun]
    exact (evaluate_serves hFaithful hReferences hRun).lookups_le hOn
      (formula_meeting hOn hReferences (cover_all ctx) (fun _ _ => trivial) x)

theorem resolveCell_lookups_le (s : Session) (c x : Coordinate) :
    Journal.lookups x ((resolveCell ctx c).final s).journal ≤
      Journal.lookups x s.journal + 1 := by
  have hMeets := resolveCell_meeting (c := c) hOn (cover_all ctx) trivial x s
  obtain ⟨a, t, hRun⟩ := exists_ended (resolveCell ctx c) s
  rw [hRun] at hMeets
  rw [final_of_ended hRun]
  exact (ends_ended.mp hMeets fun _ => False.elim).2.lookups_le

theorem Request.lookups_le (r : Request) (hFaithful : s.Faithful ctx) (hr : r ≠ .pass)
    (x : Coordinate) :
    Journal.lookups x ((r.run ctx).final s).journal ≤ Journal.lookups x s.journal + 2 := by
  cases r with
  | value f =>
    rw [Request.run, final_map]
    exact evaluate_lookups_le hOn hFaithful f x
  | cell c =>
    rw [Request.run, final_map]
    exact evaluateCell_lookups_le hOn hFaithful c x
  | resolve c =>
    rw [Request.run, final_map]
    exact (resolveCell_lookups_le hOn s c x).trans (by omega)
  | pass => exact absurd rfl hr

end Twice

end Resolver
end Spreadsheet
