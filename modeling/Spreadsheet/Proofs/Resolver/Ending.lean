import Spreadsheet.Proofs.Resolver.Preparation

/-!
# How requests end

From a faithful session, a request for a cell or for the value of a formula ends as plain recursion
does, unless it gets too deep or its preparation is refused. Each way leaves the session faithful,
so the sessions that requests lead to from the empty one are all faithful.
-/

set_option autoImplicit false

namespace Spreadsheet

open Evaluation

/-- Nesting beyond the limit, as it is met inside or as it is reported. -/
def Failure.IsDepth : Failure → Prop
  | .tooDeep => True
  | .formula (.nestedTooDeeply _) => True
  | _ => False

def Evaluation.final {State α : Type} (x : Evaluation State α) (s : State) : State :=
  match x s with
  | .ok _ t => t
  | .error _ t => t

namespace Evaluation

variable {State α : Type} {x : Evaluation State α} {s t : State}

theorem final_of_ok {a : α} (h : x s = .ok a t) : x.final s = t := by rw [final, h]

theorem final_of_error {e : Failure} (h : x s = .error e t) : x.final s = t := by rw [final, h]

theorem final_of_ended {r : Except Failure α} (h : x s = ended r t) : x.final s = t := by
  cases r with
  | ok a => exact final_of_ok h
  | error e => exact final_of_error h

end Evaluation

namespace Resolver

variable {ctx : EvaluationContext} {s t : Session} {c : Coordinate} {roots : List Coordinate}

/-! ## Preparing all roots -/

theorem prepareAll_off (h : ctx.memoize = false) (roots : List Coordinate) (s : Session) :
    prepareAll ctx roots s = .ok () s := by
  rw [prepareAll_eq]
  rw [h]
  rfl

theorem prepareAll_on (h : ctx.memoize = true) (roots : List Coordinate) :
    prepareAll ctx roots =
      roots.foldlM (prepare ctx ctx.grid.size) [] >>= fun _ => pure () := by
  rw [prepareAll_eq]
  rw [if_pos h]

theorem roots_prepares (hMemoize : ctx.memoize = true) (hs : s.Faithful ctx)
    (roots : List Coordinate) :
    Prepares ctx [] [] s roots (roots.foldlM (prepare ctx ctx.grid.size) []) :=
  foldlM_prepares
    (fun _ _ _ _ hReady => prepare_prepares hMemoize _ hReady (by simp) (Recursion.room_le_size []))
    ⟨hs, by simp, by simp⟩

/-- Prepared roots are settled unless they are above a cycle. -/
theorem prepareAll_ok (hs : s.Faithful ctx) (h : prepareAll ctx roots s = .ok () t) :
    t.Faithful ctx ∧ (ctx.memoize = true → ∀ z ∈ roots, z ∈ t.settled ∨ ReachesCycle ctx z) := by
  cases hMemoize : ctx.memoize with
  | false =>
    rw [prepareAll_off hMemoize] at h
    cases h
    exact ⟨hs, by simp⟩
  | true =>
    rw [prepareAll_on hMemoize] at h
    cases hRun : roots.foldlM (prepare ctx ctx.grid.size) [] s with
    | error e u =>
      rw [bind_of_error hRun] at h
      cases h
    | ok met u =>
      rw [bind_of_ok hRun] at h
      cases h
      obtain ⟨hPrepared, hHandled⟩ := (roots_prepares hMemoize hs roots).ok met t hRun
      refine ⟨hPrepared.faithful, fun _ z hz => ?_⟩
      rcases hHandled z hz with hSettled | hWaits | hCycle
      · exact .inl hSettled
      · cases hWaits
      · exact .inr hCycle

theorem prepareAll_error {e : Failure} (hs : s.Faithful ctx)
    (h : prepareAll ctx roots s = .error e t) :
    t.Faithful ctx ∧ ctx.memoize = true ∧ ∃ z ∈ roots, ∃ y, Reaches ctx z y ∧ Refused ctx y e := by
  cases hMemoize : ctx.memoize with
  | false =>
    rw [prepareAll_off hMemoize] at h
    cases h
  | true =>
    rw [prepareAll_on hMemoize] at h
    cases hRun : roots.foldlM (prepare ctx ctx.grid.size) [] s with
    | ok met u =>
      rw [bind_of_ok hRun] at h
      cases h
    | error e' u =>
      rw [bind_of_error hRun] at h
      cases h
      obtain ⟨hFaithful, hRefused⟩ := (roots_prepares hMemoize hs roots).error e t hRun
      exact ⟨hFaithful, rfl, hRefused⟩

/-! ## Single requests -/

section ReportDepth

variable {State α : Type} {x : Evaluation State α} {s t : State}
  (address : Except Failure (Option String))

theorem reportDepth_of_ended {r : Except Failure α} (h : x s = ended r t)
    (hr : r ≠ .error .tooDeep) : reportDepth address x s = ended r t := by
  unfold reportDepth
  cases r with
  | ok a =>
    rw [bind_of_ok (attempt_of_ok h)]
    rfl
  | error e =>
    rw [bind_of_ok (attempt_of_error h)]
    cases e with
    | tooDeep => exact absurd rfl hr
    | formula fault => rfl
    | numeric fault => rfl

theorem reportDepth_of_tooDeep (h : x s = .error .tooDeep t) :
    reportDepth address x s = .error (depthFailure address) t := by
  unfold reportDepth
  rw [bind_of_ok (attempt_of_error h)]
  rfl

theorem reportDepth_eq_ok {a : α} : reportDepth address x s = .ok a t ↔ x s = .ok a t := by
  unfold reportDepth
  cases h : x s with
  | ok b u =>
    rw [bind_of_ok (attempt_of_ok h)]
    exact Iff.rfl
  | error e u =>
    rw [bind_of_ok (attempt_of_error h)]
    constructor
    · intro hRun
      cases e <;> cases hRun
    · intro hRun
      cases hRun

end ReportDepth

/-- A cell reports want of depth under its address, or fails for not having one. -/
theorem depthFailure_cases (c : Coordinate) :
    depthFailure (some <$> c.toAddress) = .formula (.nestedTooDeeply (some c.address)) ∨
      c.toAddress = .error (depthFailure (some <$> c.toAddress)) := by
  cases hAddress : c.toAddress with
  | ok address =>
    rw [Coordinate.eq_address_of_toAddress hAddress]
    exact .inl rfl
  | error failure => exact .inr rfl

theorem depthFailure_ne_circular (c : Coordinate) (path : List Coordinate) :
    depthFailure (some <$> c.toAddress) ≠ .formula (.circular path) := by
  intro hCircular
  rcases depthFailure_cases c with hNested | hAddress
  · rw [hNested] at hCircular
    cases hCircular
  · rw [hCircular] at hAddress
    rcases Coordinate.toAddress_error hAddress with ⟨fault, hNumeric⟩ | ⟨-, hOutside⟩
    · cases hNumeric
    · cases hOutside

/-- What is asked for gets too deep once some roots are prepared. -/
def Overruns {α : Type} (ctx : EvaluationContext) (roots : List Coordinate) (x : Step α)
    (s : Session) : Prop :=
  ∃ t u, prepareAll ctx roots s = .ok () t ∧ x t = .error .tooDeep u

/-- How a request ends that prepares some roots, where plain recursion comes to `r` and `Deep` says
what is known of a failure for want of depth. -/
inductive Ending {α : Type} (ctx : EvaluationContext) (roots : List Coordinate)
    (r : Except Failure α) (Deep : Failure → Prop) (x : Step α) (s : Session) : Prop
  | settled (t : Session) (ht : t.Faithful ctx) (h : x s = ended r t)
  | deep (t : Session) (e : Failure) (ht : t.Faithful ctx)
      (hRoom : ctx.nestingLimit < Recursion.room ctx []) (he : Deep e) (h : x s = .error e t)
  | refused (t : Session) (e : Failure) (root y : Coordinate) (ht : t.Faithful ctx)
      (hMemoize : ctx.memoize = true) (hRoot : root ∈ roots) (hReach : Reaches ctx root y)
      (hRefused : Refused ctx y e) (h : x s = .error e t)

theorem Ending.faithful {α : Type} {r : Except Failure α} {Deep : Failure → Prop} {x : Step α}
    (h : Ending ctx roots r Deep x s) : (x.final s).Faithful ctx := by
  rcases h with ⟨t, ht, h⟩ | ⟨t, e, ht, -, -, h⟩ | ⟨t, e, root, y, ht, -, -, -, -, h⟩
  · rwa [final_of_ended h]
  · rwa [final_of_error h]
  · rwa [final_of_error h]

/-- A request that returns returns what plain recursion comes to. -/
theorem Ending.eq_ok {α : Type} {r : Except Failure α} {Deep : Failure → Prop} {x : Step α} {a : α}
    (h : Ending ctx roots r Deep x s) (hRun : x s = .ok a t) : r = .ok a := by
  rcases h with ⟨u, -, h⟩ | ⟨u, e, -, -, -, h⟩ | ⟨u, e, root, y, -, -, -, -, -, h⟩
  · rw [hRun] at h
    cases r with
    | ok b =>
      cases h
      rfl
    | error e => cases h
  · rw [hRun] at h
    cases h
  · rw [hRun] at h
    cases h

theorem resolveCell_ending (hs : s.Faithful ctx) (c : Coordinate) :
    Ending ctx [] (Recursion.settle ctx [] c) (· = .tooDeep) (resolveCell ctx c) s := by
  obtain ⟨t, ht, hRun | ⟨_, ⟨hRoom, rfl⟩, hRun⟩⟩ :=
    resolve_follows ctx.nestingLimit Recursion.outlasts_nil (fun _ _ => not_false) s hs
  · exact .settled t ht hRun
  · exact .deep t .tooDeep ht hRoom rfl hRun

theorem evaluateCell_ending (hs : s.Faithful ctx) (c : Coordinate) :
    Ending ctx [c] (Recursion.settle ctx [] c)
      (fun e => e = depthFailure (some <$> c.toAddress) ∧
        Overruns ctx [c] (resolveCell ctx c) s) (evaluateCell ctx c) s := by
  rw [evaluateCell_eq]
  cases hPrepare : prepareAll ctx [c] s with
  | error e t =>
    obtain ⟨ht, hMemoize, root, hRoot, y, hReach, hRefused⟩ := prepareAll_error hs hPrepare
    exact .refused t e root y ht hMemoize hRoot hReach hRefused (bind_of_error hPrepare)
  | ok _ t =>
    obtain ⟨ht, -⟩ := prepareAll_ok hs hPrepare
    obtain ⟨u, hu, hRun | ⟨_, ⟨hRoom, rfl⟩, hRun⟩⟩ :=
      resolve_follows ctx.nestingLimit Recursion.outlasts_nil (fun _ _ => not_false) t ht
    · refine .settled u hu ?_
      rw [bind_of_ok hPrepare]
      exact reportDepth_of_ended _ hRun Recursion.settle_ne_tooDeep
    · refine .deep u _ hu hRoom ⟨rfl, t, u, hPrepare, hRun⟩ ?_
      rw [bind_of_ok hPrepare]
      exact reportDepth_of_tooDeep _ hRun

theorem value_ne_tooDeep (f : Formula) :
    Recursion.value ctx (Recursion.settle ctx []) f ≠ .error .tooDeep := by
  intro hDeep
  have hCovers : Formula.Covers (· ≠ .tooDeep) (f.Asks ctx.rangeLimit)
      (Recursion.surroundings ctx (Recursion.settle ctx [])) := by
    refine ⟨fun e he => he.ne_tooDeep, fun _ _ => failsOnly_pure (), fun z _ => ?_⟩
    refine failsOnly_lift fun e he => ?_
    rintro rfl
    exact Recursion.settle_ne_tooDeep he
  exact (Formula.evaluate_failsOnly f hCovers).outcome hDeep rfl

theorem evaluate_of_references_error {f : Formula} {e : Failure}
    (h : f.references ctx.rangeLimit = .error e) (s : Session) :
    evaluate ctx f s = .error e s := by
  rw [evaluate_eq]
  rw [h]
  rfl

theorem evaluate_ending {f : Formula} (h : f.references ctx.rangeLimit = .ok roots)
    (hs : s.Faithful ctx) :
    Ending ctx roots (Recursion.value ctx (Recursion.settle ctx []) f)
      (fun e => e = depthFailure (.ok none) ∧
        Overruns ctx roots (f.evaluate (surroundings ctx (resolveCell ctx))) s)
      (evaluate ctx f) s := by
  rw [evaluate_eq]
  simp only [h, lift_ok, pure_bind]
  cases hPrepare : prepareAll ctx roots s with
  | error e t =>
    obtain ⟨ht, hMemoize, root, hRoot, y, hReach, hRefused⟩ := prepareAll_error hs hPrepare
    exact .refused t e root y ht hMemoize hRoot hReach hRefused (bind_of_error hPrepare)
  | ok _ t =>
    obtain ⟨ht, -⟩ := prepareAll_ok hs hPrepare
    obtain ⟨u, hu, hRun | ⟨_, ⟨hRoom, rfl⟩, hRun⟩⟩ :=
      evaluate_follows ctx.nestingLimit f (fun _ _ => not_false) t ht
    · refine .settled u hu ?_
      rw [bind_of_ok hPrepare]
      exact reportDepth_of_ended _ hRun (value_ne_tooDeep f)
    · refine .deep u _ hu hRoom ⟨rfl, t, u, hPrepare, hRun⟩ ?_
      rw [bind_of_ok hPrepare]
      exact reportDepth_of_tooDeep _ hRun

/-! ## Cells without a formula -/

theorem not_refers_of_literal (hText : formulaOf (ctx.grid.get? c) = none) {z : Coordinate} :
    ¬ Refers ctx c z := by
  rintro ⟨text, _, hFormula, -⟩
  rw [hText] at hFormula
  cases hFormula

theorem not_refused_of_literal (hText : formulaOf (ctx.grid.get? c) = none) {e : Failure} :
    ¬ Refused ctx c e := by
  intro h
  cases h with
  | references hFormula _ =>
    rw [hText] at hFormula
    cases hFormula
  | cell _ hSettle =>
    rw [Recursion.settle_literal (by simp) hText] at hSettle
    cases hSettle

/-- A cell without a formula is answered as it is. -/
theorem evaluateCell_literal (hs : s.Faithful ctx) (hText : formulaOf (ctx.grid.get? c) = none) :
    (evaluateCell ctx c).outcome s = .ok (ctx.grid.get? c) := by
  cases hPrepare : prepareAll ctx [c] s with
  | error e t =>
    obtain ⟨-, -, root, hRoot, y, hReach, hRefused⟩ := prepareAll_error hs hPrepare
    rw [List.mem_singleton] at hRoot
    subst hRoot
    obtain rfl := hReach.eq_of_not_refers fun _ => not_refers_of_literal hText
    exact absurd hRefused (not_refused_of_literal hText)
  | ok _ t =>
    obtain ⟨ht, -⟩ := prepareAll_ok hs hPrepare
    obtain ⟨u, hRun⟩ : ∃ u, resolveCell ctx c t = .ok (ctx.grid.get? c) u := by
      cases hSettled : t.settled[c]? with
      | none => exact ⟨_, resolve_literal hSettled (by simp) hText⟩
      | some cell =>
        have hSame := (ht c cell hSettled).2
        rw [Recursion.settle_literal (by simp) hText] at hSame
        cases hSame
        exact ⟨t, resolve_of_settled hSettled⟩
    have hCell : evaluateCell ctx c s = .ok (ctx.grid.get? c) u := by
      rw [evaluateCell_eq, bind_of_ok hPrepare, reportDepth_eq_ok]
      exact hRun
    exact outcome_of_ok hCell

end Resolver
end Spreadsheet
