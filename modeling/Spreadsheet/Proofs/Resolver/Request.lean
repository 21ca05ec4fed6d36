import Spreadsheet.Proofs.Grid
import Spreadsheet.Proofs.Resolver.Ending

/-!
# Requests and passes

The requests that one session answers, one after the other, and what a whole pass over the grid does
entry by entry. Every session that requests lead to is faithful.
-/

set_option autoImplicit false

namespace Spreadsheet

open Evaluation

namespace Evaluation

variable {State α β : Type} {s : State}

theorem map_of_ok {x : Evaluation State α} {a : α} {t : State} (f : α → β) (h : x s = .ok a t) :
    (f <$> x) s = .ok (f a) t := by
  change EStateM.map f x s = _
  rw [EStateM.map, h]

theorem map_of_error {x : Evaluation State α} {e : Failure} {t : State} (f : α → β)
    (h : x s = .error e t) : (f <$> x) s = .error e t := by
  change EStateM.map f x s = _
  rw [EStateM.map, h]

theorem outcome_map (f : α → β) (x : Evaluation State α) (s : State) :
    (f <$> x).outcome s = (x.outcome s).map f := by
  cases h : x s with
  | ok a t => rw [outcome_of_ok h, outcome_of_ok (map_of_ok f h)]; rfl
  | error e t => rw [outcome_of_error h, outcome_of_error (map_of_error f h)]; rfl

theorem final_map (f : α → β) (x : Evaluation State α) (s : State) :
    (f <$> x).final s = x.final s := by
  cases h : x s with
  | ok a t => rw [final_of_ok h, final_of_ok (map_of_ok f h)]
  | error e t => rw [final_of_error h, final_of_error (map_of_error f h)]

end Evaluation

namespace Resolver

inductive Request where
  | value (f : Formula)
  | cell (c : Coordinate)
  /-- A cell, without preparing what it depends on. -/
  | resolve (c : Coordinate)
  /-- All cells of the grid. -/
  | pass

inductive Answer where
  | value (v : Value)
  | cell (cell : Option Cell)
  | cells (cells : List (Coordinate × Cell))

def Request.run (ctx : EvaluationContext) : Request → Step Answer
  | value f => Answer.value <$> evaluate ctx f
  | cell c => Answer.cell <$> evaluateCell ctx c
  | resolve c => Answer.cell <$> resolveCell ctx c
  | pass => Answer.cells <$> evaluateGrid ctx

/-- The coordinates that a request itself names. -/
def Request.Asks (ctx : EvaluationContext) : Request → Coordinate → Prop
  | value f, z => f.Asks ctx.rangeLimit z
  | cell c, z => z = c
  | resolve c, z => z = c
  | pass, z => z ∈ ctx.grid.coordinates

/-- The coordinate is reached by references from what is requested. -/
def Request.Touches (ctx : EvaluationContext) (r : Request) (z : Coordinate) : Prop :=
  ∃ c, r.Asks ctx c ∧ Reaches ctx c z

theorem Request.touches_of_asks {ctx : EvaluationContext} {r : Request} {c : Coordinate}
    (h : r.Asks ctx c) : r.Touches ctx c := ⟨c, h, .refl⟩

theorem Request.Touches.reaches {ctx : EvaluationContext} {r : Request} {x y : Coordinate}
    (h : r.Touches ctx x) (hxy : Reaches ctx x y) : r.Touches ctx y := by
  obtain ⟨c, hc, hReach⟩ := h
  exact ⟨c, hc, hReach.trans hxy⟩

def after (ctx : EvaluationContext) (requests : List Request) : Session :=
  requests.foldl (fun s r => (r.run ctx).final s) {}

/-- The entries that a pass comes to, with the sessions in which it settles them. -/
def visits (ctx : EvaluationContext) :
    List (Coordinate × Cell) → Session → List (Coordinate × Session)
  | [], _ => []
  | entry :: rest, s =>
    (entry.1, s) ::
      match evaluateEntry ctx entry s with
      | .ok _ t => visits ctx rest t
      | .error _ _ => []

def EndsInPass (ctx : EvaluationContext) (s : Session) (c : Coordinate)
    (r : Except Failure (Option Cell)) : Prop :=
  ∃ t, (c, t) ∈ visits ctx ctx.grid.entries s ∧ (evaluateCell ctx c).outcome t = r

variable {ctx : EvaluationContext} {s t : Session} {entries : List (Coordinate × Cell)}

/-! ## The entries of a pass -/

theorem evaluateEntry_run (entry : Coordinate × Cell) (s : Session) :
    evaluateEntry ctx entry s =
      ended (settledEntry entry ((evaluateCell ctx entry.1).outcome s))
        ((evaluateCell ctx entry.1).final s) := by
  unfold evaluateEntry
  cases h : evaluateCell ctx entry.1 s with
  | ok cell t =>
    rw [bind_of_ok (attempt_of_ok h), outcome_of_ok h, final_of_ok h]
    rfl
  | error e t =>
    rw [bind_of_ok (attempt_of_error h), outcome_of_error h, final_of_error h]
    generalize settledEntry entry (.error e) = settled
    cases settled <;> rfl

theorem settledEntry_coordinate {entry result : Coordinate × Cell}
    {r : Except Failure (Option Cell)} (h : settledEntry entry r = .ok (some result)) :
    result.1 = entry.1 := by
  cases r with
  | ok cell =>
    cases cell with
    | none => simp [settledEntry] at h
    | some cell =>
      cases h
      rfl
  | error e =>
    cases e with
    | formula fault =>
      simp only [settledEntry] at h
      split at h <;> cases h
      rfl
    | numeric fault => cases h
    | tooDeep => cases h

theorem evaluateEntry_ok {entry : Coordinate × Cell} {x : Option (Coordinate × Cell)}
    (h : evaluateEntry ctx entry s = .ok x t) :
    settledEntry entry ((evaluateCell ctx entry.1).outcome s) = .ok x ∧
      t = (evaluateCell ctx entry.1).final s := by
  rw [evaluateEntry_run] at h
  cases hSettled : settledEntry entry ((evaluateCell ctx entry.1).outcome s) with
  | ok y =>
    rw [hSettled] at h
    cases h
    exact ⟨rfl, rfl⟩
  | error e =>
    rw [hSettled] at h
    cases h

theorem evaluateEntry_error {entry : Coordinate × Cell} {e : Failure}
    (h : evaluateEntry ctx entry s = .error e t) :
    settledEntry entry ((evaluateCell ctx entry.1).outcome s) = .error e ∧
      t = (evaluateCell ctx entry.1).final s := by
  rw [evaluateEntry_run] at h
  cases hSettled : settledEntry entry ((evaluateCell ctx entry.1).outcome s) with
  | ok y =>
    rw [hSettled] at h
    cases h
  | error e' =>
    rw [hSettled] at h
    cases h
    exact ⟨rfl, rfl⟩

/-- A pass ends at its first entry, or goes on to the others. -/
theorem evaluateEntries_cons_run {entry : Coordinate × Cell}
    {a : Except Failure (List (Coordinate × Cell))}
    (h : evaluateEntries ctx (entry :: entries) s = ended a t) :
    (∃ e, a = .error e ∧ evaluateEntry ctx entry s = .error e t) ∨
      ∃ x u b, evaluateEntry ctx entry s = .ok x u ∧ evaluateEntries ctx entries u = ended b t ∧
        a = b.map (x.toList ++ ·) := by
  rw [evaluateEntries] at h
  cases hFirst : evaluateEntry ctx entry s with
  | error e u =>
    rw [bind_of_error hFirst] at h
    obtain ⟨rfl, rfl⟩ := eq_of_ended_error h
    exact .inl ⟨e, rfl, rfl⟩
  | ok x u =>
    rw [bind_of_ok hFirst] at h
    obtain ⟨b, v, hRest⟩ := exists_ended (evaluateEntries ctx entries) u
    refine .inr ⟨x, u, b, rfl, ?_⟩
    cases b with
    | error e =>
      rw [bind_of_error hRest] at h
      obtain ⟨rfl, rfl⟩ := eq_of_ended_error h
      exact ⟨hRest, rfl⟩
    | ok others =>
      rw [bind_of_ok hRest] at h
      obtain ⟨rfl, rfl⟩ := eq_of_ended_ok h
      exact ⟨hRest, rfl⟩

/-- A pass that returns settled its first entry and then the others. -/
theorem evaluateEntries_cons_ok {entry : Coordinate × Cell} {results : List (Coordinate × Cell)}
    (h : evaluateEntries ctx (entry :: entries) s = .ok results t) :
    ∃ x u others, evaluateEntry ctx entry s = .ok x u ∧
      evaluateEntries ctx entries u = .ok others t ∧ results = x.toList ++ others := by
  rcases evaluateEntries_cons_run (a := .ok results) h with
    ⟨e, he, -⟩ | ⟨x, u, b, hFirst, hRest, hb⟩
  · cases he
  · cases b with
    | error e => cases hb
    | ok others =>
      cases hb
      exact ⟨x, u, others, hFirst, hRest, rfl⟩

/-- A pass comes past an entry that gets a result. -/
theorem outcome_evaluateEntries_cons {entry : Coordinate × Cell} {x : Option (Coordinate × Cell)}
    {others : List (Coordinate × Cell)}
    (h : settledEntry entry ((evaluateCell ctx entry.1).outcome s) = .ok x)
    (hRest : (evaluateEntries ctx entries).outcome ((evaluateCell ctx entry.1).final s) =
      .ok others) :
    (evaluateEntries ctx (entry :: entries)).outcome s = .ok (x.toList ++ others) := by
  have hFirst : evaluateEntry ctx entry s = .ok x ((evaluateCell ctx entry.1).final s) := by
    rw [evaluateEntry_run, h]
    rfl
  obtain ⟨t, hOthers⟩ := exists_of_outcome_ok hRest
  rw [evaluateEntries, outcome_of_ok]
  rw [bind_of_ok hFirst, bind_of_ok hOthers]
  rfl

/-! ## Faithful sessions -/

theorem evaluateCell_final_faithful (hs : s.Faithful ctx) (c : Coordinate) :
    ((evaluateCell ctx c).final s).Faithful ctx :=
  (evaluateCell_ending hs c).faithful

/-- What the evaluation of each entry's cell preserves holds after a pass. -/
theorem evaluateEntries_final {P : Session → Prop} (hs : P s)
    (hCell : ∀ entry ∈ entries, ∀ s, P s → P ((evaluateCell ctx entry.1).final s)) :
    P ((evaluateEntries ctx entries).final s) := by
  induction entries generalizing s with
  | nil => exact hs
  | cons entry rest ih =>
    have hFirst := hCell entry List.mem_cons_self s hs
    obtain ⟨a, t, hRun⟩ := exists_ended (evaluateEntries ctx (entry :: rest)) s
    rw [final_of_ended hRun]
    rcases evaluateEntries_cons_run hRun with ⟨e, -, hEntry⟩ | ⟨x, u, b, hEntry, hRest, -⟩
    · rwa [(evaluateEntry_error hEntry).2]
    · rw [← (evaluateEntry_ok hEntry).2] at hFirst
      have hOthers := ih hFirst fun e he => hCell e (List.mem_cons_of_mem _ he)
      rwa [final_of_ended hRest] at hOthers

theorem evaluateEntries_final_faithful (hs : s.Faithful ctx) :
    ((evaluateEntries ctx entries).final s).Faithful ctx :=
  evaluateEntries_final hs fun entry _ _ hs => evaluateCell_final_faithful hs entry.1

theorem Request.final_faithful (hs : s.Faithful ctx) (r : Request) :
    ((r.run ctx).final s).Faithful ctx := by
  cases r with
  | value f =>
    rw [Request.run, final_map]
    cases hReferences : f.references ctx.rangeLimit with
    | error e => rwa [final_of_error (evaluate_of_references_error hReferences s)]
    | ok roots => exact (evaluate_ending hReferences hs).faithful
  | cell c =>
    rw [Request.run, final_map]
    exact evaluateCell_final_faithful hs c
  | resolve c =>
    rw [Request.run, final_map]
    exact (resolveCell_ending hs c).faithful
  | pass =>
    rw [Request.run, final_map]
    exact evaluateEntries_final_faithful hs

/-- What the empty session has and some requests preserve holds after these requests. -/
theorem after_of_final {P : Session → Prop} {requests : List Request} (h : P {})
    (hRequest : ∀ r ∈ requests, ∀ s, P s → P ((r.run ctx).final s)) : P (after ctx requests) := by
  have hFold : ∀ s : Session, P s → P (requests.foldl (fun s r => (r.run ctx).final s) s) := by
    induction requests with
    | nil => exact fun s hs => hs
    | cons r rest ih =>
      exact fun s hs => ih (fun r hr => hRequest r (List.mem_cons_of_mem _ hr)) _
        (hRequest r List.mem_cons_self s hs)
  exact hFold {} h

/-- What the empty session has and every request preserves holds whatever was asked before. -/
theorem after_induction {P : Session → Prop} (h : P {})
    (hRequest : ∀ (r : Request) s, P s → P ((r.run ctx).final s)) (requests : List Request) :
    P (after ctx requests) :=
  after_of_final h fun r _ => hRequest r

/-- Whatever was asked before, the memory holds what plain recursion settles. -/
theorem after_faithful (ctx : EvaluationContext) (requests : List Request) :
    (after ctx requests).Faithful ctx :=
  after_induction (Session.faithful_empty ctx) (fun r _ hs => r.final_faithful hs) requests

/-- What the evaluation of each entry's cell preserves holds wherever a pass comes to an entry. -/
theorem visits_of_final {P : Session → Prop} (hs : P s)
    (hCell : ∀ entry ∈ entries, ∀ s, P s → P ((evaluateCell ctx entry.1).final s))
    {v : Coordinate × Session} (hv : v ∈ visits ctx entries s) : P v.2 := by
  induction entries generalizing s with
  | nil => cases hv
  | cons entry rest ih =>
    rw [visits] at hv
    rcases List.mem_cons.mp hv with rfl | hv
    · exact hs
    · cases hRun : evaluateEntry ctx entry s with
      | error e u =>
        rw [hRun] at hv
        cases hv
      | ok x u =>
        rw [hRun] at hv
        obtain ⟨-, rfl⟩ := evaluateEntry_ok hRun
        exact ih (hCell entry List.mem_cons_self s hs)
          (fun e he => hCell e (List.mem_cons_of_mem _ he)) hv

/-- A pass comes to its entries in faithful sessions. -/
theorem visits_faithful (hs : s.Faithful ctx) {v : Coordinate × Session}
    (hv : v ∈ visits ctx entries s) : v.2.Faithful ctx :=
  visits_of_final hs (fun entry _ _ hs => evaluateCell_final_faithful hs entry.1) hv

/-- Where the results of a pass come from. -/
theorem mem_of_evaluateEntries {results : List (Coordinate × Cell)}
    (h : evaluateEntries ctx entries s = .ok results t) {result : Coordinate × Cell}
    (hMem : result ∈ results) :
    ∃ source u, (result.1, source) ∈ entries ∧ (result.1, u) ∈ visits ctx entries s ∧
      settledEntry (result.1, source) ((evaluateCell ctx result.1).outcome u) =
        .ok (some result) := by
  induction entries generalizing s results with
  | nil =>
    cases h
    cases hMem
  | cons entry rest ih =>
    obtain ⟨x, u, others, hFirst, hRest, rfl⟩ := evaluateEntries_cons_ok h
    obtain ⟨hSettled, rfl⟩ := evaluateEntry_ok hFirst
    rcases List.mem_append.mp hMem with hMem | hMem
    · obtain rfl : x = some result := by simpa using hMem
      have hCoordinate := settledEntry_coordinate hSettled
      exact ⟨entry.2, s, by simp [hCoordinate], by simp [visits, hCoordinate],
        by rw [hCoordinate]; exact hSettled⟩
    · obtain ⟨source, v, hSource, hVisit, hEntry⟩ := ih hRest hMem
      refine ⟨source, v, List.mem_cons_of_mem _ hSource, ?_, hEntry⟩
      rw [visits, hFirst]
      exact List.mem_cons_of_mem _ hVisit

/-- Every entry of the grid gets a result. -/
theorem settledEntry_of_isEntry {entry : Coordinate × Cell} {x : Option (Coordinate × Cell)}
    (hs : s.Faithful ctx) (hEntry : entry ∈ ctx.grid.entries)
    (h : settledEntry entry ((evaluateCell ctx entry.1).outcome s) = .ok x) :
    ∃ cell, x = some (entry.1, cell) := by
  cases hRun : evaluateCell ctx entry.1 s with
  | ok cell t =>
    have hSettle := (evaluateCell_ending hs entry.1).eq_ok hRun
    obtain ⟨y, rfl⟩ := Recursion.exists_cell_of_settle (Grid.get?_eq_some_iff.mpr hEntry) hSettle
    rw [outcome_of_ok hRun] at h
    cases h
    exact ⟨y, rfl⟩
  | error e t =>
    rw [outcome_of_error hRun] at h
    cases e with
    | formula fault =>
      simp only [settledEntry] at h
      split at h <;> cases h
      exact ⟨_, rfl⟩
    | numeric fault => cases h
    | tooDeep => cases h

theorem coordinates_of_evaluateEntries {results : List (Coordinate × Cell)} (hs : s.Faithful ctx)
    (hEntries : entries ⊆ ctx.grid.entries) (h : evaluateEntries ctx entries s = .ok results t) :
    results.map (·.1) = entries.map (·.1) := by
  induction entries generalizing s results with
  | nil =>
    cases h
    rfl
  | cons entry rest ih =>
    obtain ⟨x, u, others, hFirst, hRest, rfl⟩ := evaluateEntries_cons_ok h
    obtain ⟨hSettled, rfl⟩ := evaluateEntry_ok hFirst
    obtain ⟨cell, rfl⟩ := settledEntry_of_isEntry hs (hEntries List.mem_cons_self) hSettled
    have hOthers := ih (evaluateCell_final_faithful hs entry.1)
      (fun e he => hEntries (List.mem_cons_of_mem _ he)) hRest
    simp [hOthers]

/-- A pass gives one result for each coordinate of the grid, in the order of the grid. -/
theorem coordinates_of_evaluateGrid {results : List (Coordinate × Cell)} (hs : s.Faithful ctx)
    (h : evaluateGrid ctx s = .ok results t) : results.map (·.1) = ctx.grid.coordinates :=
  coordinates_of_evaluateEntries hs (List.Subset.refl _) h

end Resolver
end Spreadsheet
