import Spreadsheet.Proofs.Resolver.Ending
import Spreadsheet.Proofs.Resolver.Tracking

/-!
# The walk of preparation

Preparation as a relation: how it goes from root to root, which cells it enters, and in which states
it leaves them. A cell that is entered is settled once all its references are, or it is put off
because they reach a cycle. Statements about preparation go by induction on this relation and need
not open the resolver.
-/

set_option autoImplicit false

namespace Spreadsheet

open Evaluation

namespace Resolver

variable {ctx : EvaluationContext} {s t u : Session} {c z : Coordinate} {text : String} {d : Nat}
  {met met' path roots refs : List Coordinate} {r : Except Failure (List Coordinate)}
  {e : Failure}

def AreCalls (moments : List Moment) : Prop :=
  ∀ m ∈ moments, ∃ key arguments, m = .call key arguments

/-- A formula cell was computed from the memory alone: its formula did nothing but call functions,
and a failure is its own. From a faithful session it comes to what plain recursion comes to. -/
structure Computes (ctx : EvaluationContext) (c : Coordinate) (s : Session)
    (v : Except Failure Value) (t : Session) : Prop where
  settled : t.settled = s.settled
  journal : ∃ calls, t.journal = .finish c :: (calls ++ .start c :: s.journal) ∧ AreCalls calls
  own : ∀ e, v = .error e →
    Formula.OwnFailure ctx.functions e ∨ ∃ fault, e = .formula (.parsing fault)
  plain : s.Faithful ctx → ∀ {text}, formulaOf (ctx.grid.get? c) = some text →
    settledCell c text v =
      settledCell c text (Recursion.textValue ctx (Recursion.settle ctx [c]) text)

/-- The passage of a formula that finds its references in the memory that `s` starts with. -/
def fromMemory (ctx : EvaluationContext) (s : Session) : Passage Session := fun u o v =>
  u.settled = s.settled → v.settled = s.settled ∧
    (∃ calls, v.journal = calls ++ u.journal ∧ AreCalls calls) ∧
    ∀ e, o = some e → Formula.OwnFailure ctx.functions e ∨ ∃ fault, e = .formula (.parsing fault)

theorem fromMemory_evaluates (s : Session) : Evaluates ctx (fromMemory ctx s) where
  composes := {
    refl := fun u hu => ⟨hu, ⟨[], rfl, nofun⟩, nofun⟩
    trans := by
      intro u v x o huv hvx hu
      obtain ⟨hv, ⟨calls, hCalls, hOnly⟩, -⟩ := huv hu
      obtain ⟨hx, ⟨calls', hCalls', hOnly'⟩, hOwn⟩ := hvx hv
      refine ⟨hx, ⟨calls' ++ calls, by rw [hCalls', hCalls, List.append_assoc], ?_⟩, hOwn⟩
      intro m hm
      exact (List.mem_append.mp hm).elim (hOnly' m) (hOnly m) }
  own := by
    intro e he u hu
    refine ⟨hu, ⟨[], rfl, nofun⟩, ?_⟩
    rintro _ ⟨⟩
    exact .inl he
  parsing := by
    intro fault u hu
    refine ⟨hu, ⟨[], rfl, nofun⟩, ?_⟩
    rintro _ ⟨⟩
    exact .inr ⟨fault, rfl⟩
  call := fun u key arguments hu =>
    ⟨hu, ⟨[.call key arguments], rfl, by simp [AreCalls]⟩, nofun⟩

theorem exists_computes (hText : formulaOf (ctx.grid.get? c) = some text)
    (hAll : ∀ z, Refers ctx c z → z ∈ s.settled) :
    ∃ v t, Computes ctx c s v t ∧
      compute ctx (resolve ctx d [c]) c text (Formula.parse text).toOption s =
        ended (settledCell c text v) t := by
  have hSettle : ∀ z, Refers ctx c z → Leads (fromMemory ctx s) (resolve ctx d [c] z) := by
    intro z hz u
    obtain ⟨x, v, hRun⟩ := exists_ended (resolve ctx d [c] z) u
    by_cases hu : u.settled = s.settled
    · obtain ⟨cell, hCell⟩ : ∃ cell, s.settled[z]? = some cell :=
        ⟨_, Std.HashMap.getElem?_eq_some_getElem (hAll z hz)⟩
      rw [← hu] at hCell
      rw [resolve_of_settled hCell]
      exact (fromMemory_evaluates s).composes.refl u
    · rw [hRun]
      exact ends_ended.mpr fun h => absurd h hu
  obtain ⟨v, t, hRun⟩ := exists_ended
    (do (← treeOf text (Formula.parse text).toOption).evaluate
          (surroundings ctx (resolve ctx d [c])) : Step Value) (s.noted (.start c))
  have hEnds := (fromMemory_evaluates s).ofText hText (treeOf_parse text) hSettle
    (s.noted (.start c))
  rw [hRun] at hEnds
  obtain ⟨hSettled, ⟨calls, hCalls, hOnly⟩, hOwn⟩ := ends_ended.mp hEnds rfl
  have hCompute := compute_run hRun
  refine ⟨v, t.noted (.finish c), ⟨hSettled, ⟨calls, ?_, hOnly⟩, fun e he => ?_, ?_⟩, hCompute⟩
  · rw [Session.noted, hCalls]
    rfl
  · exact hOwn e (failureOf_eq_some.mpr he)
  · intro hs text' hText'
    obtain rfl : text = text' := Option.some.inj (hText.symm.trans hText')
    obtain ⟨u, -, hPlain⟩ := compute_of_settled (d := d) hs hText (treeOf_parse text) hAll
    exact (ended_inj (hCompute.symm.trans hPlain)).1

/-- The walk enters a formula cell whose references can be read. -/
structure Enters (ctx : EvaluationContext) (met : List Coordinate) (s : Session) (c : Coordinate)
    (text : String) (refs : List Coordinate) : Prop where
  fresh : Fresh s met c
  formula : formulaOf (ctx.grid.get? c) = some text
  references : textReferences ctx text = .ok refs

theorem Enters.mem_references (h : Enters ctx met s c text refs) : z ∈ refs ↔ Refers ctx c z :=
  mem_textReferences h.references h.formula

/-- A walk from some roots: the cells met before, the session before, the roots, what the walk ends
with and the session after. -/
inductive Walk (ctx : EvaluationContext) : List Coordinate → Session → List Coordinate →
    Except Failure (List Coordinate) → Session → Prop
  | done {met : List Coordinate} {s : Session} : Walk ctx met s [] (.ok met) s
  | skip {met cs : List Coordinate} {s t : Session} {c : Coordinate}
      {r : Except Failure (List Coordinate)} (h : c ∈ s.settled ∨ c ∈ met)
      (rest : Walk ctx met s cs r t) : Walk ctx met s (c :: cs) r t
  | literal {met cs : List Coordinate} {s t : Session} {c : Coordinate}
      {r : Except Failure (List Coordinate)} (hFresh : Fresh s met c)
      (hText : formulaOf (ctx.grid.get? c) = none)
      (rest : Walk ctx met ((s.noted (.lookup c)).kept c (ctx.grid.get? c)) cs r t) :
      Walk ctx met s (c :: cs) r t
  | unreadable {met cs : List Coordinate} {s : Session} {c : Coordinate} {text : String}
      {e : Failure} (hFresh : Fresh s met c) (hText : formulaOf (ctx.grid.get? c) = some text)
      (h : textReferences ctx text = .error e) :
      Walk ctx met s (c :: cs) (.error e) (s.noted (.lookup c))
  | stuck {met cs refs : List Coordinate} {s t : Session} {c : Coordinate} {text : String}
      {e : Failure} (h : Enters ctx met s c text refs)
      (below : Walk ctx (c :: met) (s.noted (.lookup c)) refs (.error e) t) :
      Walk ctx met s (c :: cs) (.error e) t
  | putOff {met cs refs met' : List Coordinate} {s t u : Session} {c : Coordinate} {text : String}
      {r : Except Failure (List Coordinate)} (h : Enters ctx met s c text refs)
      (below : Walk ctx (c :: met) (s.noted (.lookup c)) refs (.ok met') t)
      (hCycle : ReachesCycle ctx c) (rest : Walk ctx met' t cs r u) : Walk ctx met s (c :: cs) r u
  | failed {met cs refs met' : List Coordinate} {s t u : Session} {c : Coordinate} {text : String}
      {v : Except Failure Value} {e : Failure} (h : Enters ctx met s c text refs)
      (below : Walk ctx (c :: met) (s.noted (.lookup c)) refs (.ok met') t)
      (hAll : ∀ z, Refers ctx c z → z ∈ t.settled) (hRun : Computes ctx c t v u)
      (hCell : settledCell c text v = .error e) : Walk ctx met s (c :: cs) (.error e) u
  | settled {met cs refs met' : List Coordinate} {s t u x : Session} {c : Coordinate}
      {text : String} {v : Except Failure Value} {cell : Cell}
      {r : Except Failure (List Coordinate)} (h : Enters ctx met s c text refs)
      (below : Walk ctx (c :: met) (s.noted (.lookup c)) refs (.ok met') t)
      (hAll : ∀ z, Refers ctx c z → z ∈ t.settled) (hRun : Computes ctx c t v u)
      (hCell : settledCell c text v = .ok cell)
      (rest : Walk ctx met' (u.kept c (some cell)) cs r x) : Walk ctx met s (c :: cs) r x

theorem Walk.append {cs : List Coordinate} (h : Walk ctx met s roots (.ok met') t)
    (h' : Walk ctx met' t cs r u) : Walk ctx met s (roots ++ cs) r u := by
  generalize hr : Except.ok met' = first at h
  induction h with
  | done =>
    cases hr
    exact h'
  | skip h _ ih => exact .skip h (ih h' hr)
  | literal hFresh hText _ ih => exact .literal hFresh hText (ih h' hr)
  | unreadable => cases hr
  | stuck => cases hr
  | putOff h below hCycle _ _ ih => exact .putOff h below hCycle (ih h' hr)
  | failed => cases hr
  | settled h below hAll hRun hCell _ _ ih => exact .settled h below hAll hRun hCell (ih h' hr)

theorem Walk.append_error {cs : List Coordinate} (h : Walk ctx met s roots (.error e) t) :
    Walk ctx met s (roots ++ cs) (.error e) t := by
  generalize hr : Except.error e = r at h
  induction h with
  | done => cases hr
  | skip h _ ih => exact .skip h (ih hr)
  | literal hFresh hText _ ih => exact .literal hFresh hText (ih hr)
  | unreadable hFresh hText h => exact .unreadable hFresh hText h
  | stuck h below _ => exact .stuck h below
  | putOff h below hCycle _ _ ih => exact .putOff h below hCycle (ih hr)
  | failed h below hAll hRun hCell _ => exact .failed h below hAll hRun hCell
  | settled h below hAll hRun hCell _ _ ih => exact .settled h below hAll hRun hCell (ih hr)

/-! ## Preparation walks -/

theorem foldlM_walk {step : List Coordinate → Coordinate → Step (List Coordinate)}
    (hPrepares : ∀ z ∈ roots, ∀ met s, Ready ctx path met s →
      Prepares ctx path met s [z] (step met z))
    (hWalk : ∀ z ∈ roots, ∀ met s r t, Ready ctx path met s → step met z s = ended r t →
      Walk ctx met s [z] r t)
    (h : Ready ctx path met s) (hRun : roots.foldlM step met s = ended r t) :
    Walk ctx met s roots r t := by
  induction roots generalizing met s with
  | nil =>
    obtain ⟨rfl, rfl⟩ := eq_of_ended_ok hRun
    exact .done
  | cons z zs ih =>
    obtain ⟨first, u, hFirst⟩ := exists_ended (step met z) s
    have hHead := hWalk z List.mem_cons_self met s first u h hFirst
    rw [List.foldlM_cons] at hRun
    cases first with
    | error e =>
      rw [bind_of_error hFirst] at hRun
      obtain ⟨rfl, rfl⟩ := eq_of_ended_error hRun
      exact hHead.append_error
    | ok met' =>
      rw [bind_of_ok hFirst] at hRun
      obtain ⟨hPrepared, -⟩ := (hPrepares z List.mem_cons_self met s h).ok met' u hFirst
      have hRest := ih (fun z hz => hPrepares z (List.mem_cons_of_mem _ hz))
        (fun z hz => hWalk z (List.mem_cons_of_mem _ hz)) (hPrepared.ready h.path_subset) hRun
      exact hHead.append hRest

theorem Enters.computed_walk (h : Enters ctx met s c text refs)
    (below : Walk ctx (c :: met) (s.noted (.lookup c)) refs (.ok met') t)
    (hAll : ∀ z, Refers ctx c z → z ∈ t.settled)
    (hRun : (do
      let cell ← compute ctx (resolve ctx d [c]) c text (Formula.parse text).toOption
      keep c (some cell)
      return met') t = ended r u) :
    Walk ctx met s [c] r u := by
  obtain ⟨v, x, hComputes, hCompute⟩ := exists_computes (d := d) h.formula hAll
  cases hCell : settledCell c text v with
  | error e =>
    rw [hCell] at hCompute
    rw [bind_of_error hCompute] at hRun
    obtain ⟨rfl, rfl⟩ := eq_of_ended_error hRun
    exact .failed h below hAll hComputes hCell
  | ok cell =>
    rw [hCell] at hCompute
    rw [bind_of_ok hCompute] at hRun
    obtain ⟨rfl, rfl⟩ := eq_of_ended_ok hRun
    exact .settled h below hAll hComputes hCell .done

theorem prepareFormula_walk {prepare : List Coordinate → Coordinate → Step (List Coordinate)}
    (hFresh : Fresh s met c) (hText : formulaOf (ctx.grid.get? c) = some text)
    (h : Ready ctx path met s) (hPath : ∀ x ∈ path, Relation.TransGen (Refers ctx) x c)
    (hPrepares : ∀ z met s, Refers ctx c z → Ready ctx (c :: path) met s →
      Prepares ctx (c :: path) met s [z] (prepare met z))
    (hWalk : ∀ z met s r t, Refers ctx c z → Ready ctx (c :: path) met s →
      prepare met z s = ended r t → Walk ctx met s [z] r t)
    (hRun : prepareFormula ctx prepare met c text (s.noted (.lookup c)) = ended r t) :
    Walk ctx met s [c] r t := by
  rw [prepareFormula_eq] at hRun
  simp only [referencesOf_parse] at hRun
  cases hReferences : textReferences ctx text with
  | error e =>
    rw [hReferences] at hRun
    obtain ⟨rfl, rfl⟩ := eq_of_ended_error hRun
    exact .unreadable hFresh hText hReferences
  | ok cs =>
    rw [hReferences, lift_ok, pure_bind] at hRun
    have hEnters : Enters ctx met s c text cs := ⟨hFresh, hText, hReferences⟩
    have hReady : Ready ctx (c :: path) (c :: met) (s.noted (.lookup c)) := (h.noted _).cons
    have hFold : Prepares ctx (c :: path) (c :: met) (s.noted (.lookup c)) cs
        (cs.foldlM prepare (c :: met)) :=
      foldlM_prepares (fun z hz met s => hPrepares z met s (hEnters.mem_references.mp hz)) hReady
    obtain ⟨first, u, hFirst⟩ := exists_ended (cs.foldlM prepare (c :: met)) (s.noted (.lookup c))
    have hBelow := foldlM_walk
      (fun z hz met s => hPrepares z met s (hEnters.mem_references.mp hz))
      (fun z hz met s r t => hWalk z met s r t (hEnters.mem_references.mp hz)) hReady hFirst
    cases first with
    | error e =>
      rw [bind_of_error hFirst] at hRun
      obtain ⟨rfl, rfl⟩ := eq_of_ended_error hRun
      exact .stuck hEnters hBelow
    | ok met' =>
      rw [bind_of_ok hFirst, bind_of_ok (areSettled_run cs u)] at hRun
      obtain ⟨hPrepared, hHandled⟩ := hFold.ok met' u hFirst
      cases hAll : cs.all (u.settled.contains ·) with
      | false =>
        rw [hAll] at hRun
        obtain ⟨z, hz, hNot⟩ : ∃ z ∈ cs, z ∉ u.settled := by
          simpa [List.all_eq_false] using hAll
        have hCycle : ReachesCycle ctx c :=
          reachesCycle_of_unsettled hPath (hEnters.mem_references.mp hz) (hHandled z hz) hNot
        obtain ⟨rfl, rfl⟩ := eq_of_ended_ok hRun
        exact .putOff hEnters hBelow hCycle .done
      | true =>
        rw [hAll, if_pos rfl] at hRun
        refine hEnters.computed_walk hBelow (fun z hz => ?_) hRun
        exact Std.HashMap.contains_iff_mem.mp
          (List.all_eq_true.mp hAll z (hEnters.mem_references.mpr hz))

/-- Preparing a cell while the cells of `path`, which all lead to it, are being prepared. -/
theorem prepare_walk (hMemoize : ctx.memoize = true) (d : Nat) (h : Ready ctx path met s)
    (hPath : ∀ x ∈ path, Relation.TransGen (Refers ctx) x c)
    (hRoom : Recursion.room ctx path ≤ d) (hRun : prepare ctx d met c s = ended r t) :
    Walk ctx met s [c] r t := by
  induction d using Nat.strong_induction_on generalizing path met s c r t with
  | _ d ih =>
    by_cases hSettled : c ∈ s.settled
    · rw [prepare_of_settled hSettled] at hRun
      obtain ⟨rfl, rfl⟩ := eq_of_ended_ok hRun
      exact .skip (.inl hSettled) .done
    by_cases hMet : c ∈ met
    · rw [prepare_of_met hMet] at hRun
      obtain ⟨rfl, rfl⟩ := eq_of_ended_ok hRun
      exact .skip (.inr hMet) .done
    cases hText : formulaOf (ctx.grid.get? c) with
    | none =>
      rw [prepare_literal hSettled hMet hText] at hRun
      obtain ⟨rfl, rfl⟩ := eq_of_ended_ok hRun
      exact .literal ⟨hSettled, hMet⟩ hText .done
    | some text =>
      have hLess := Recursion.room_cons_lt (fun hc => hMet (h.path_subset hc)) hText
      cases d with
      | zero => omega
      | succ d =>
        -- the path leads on to the references, so that one of them on the path closes a cycle
        have hLeads : ∀ z, Refers ctx c z →
            ∀ x ∈ c :: path, Relation.TransGen (Refers ctx) x z := by
          intro z hz x hx
          rcases List.mem_cons.mp hx with rfl | hx
          · exact .single hz
          · exact (hPath x hx).tail hz
        rw [prepare_succ hSettled hMet hText] at hRun
        refine prepareFormula_walk ⟨hSettled, hMet⟩ hText h hPath (fun z met s hz hs => ?_)
          (fun z met s r t hz hs hRun => ?_) hRun
        · exact prepare_prepares hMemoize d hs (hLeads z hz) (by omega)
        · exact ih d d.lt_succ_self hs (hLeads z hz) (by omega) hRun

theorem roots_walk (hMemoize : ctx.memoize = true) (hs : s.Faithful ctx)
    (hRun : roots.foldlM (prepare ctx ctx.grid.size) [] s = ended r t) :
    Walk ctx [] s roots r t :=
  foldlM_walk
    (fun _ _ _ _ hReady => prepare_prepares hMemoize _ hReady (by simp) (Recursion.room_le_size []))
    (fun _ _ _ _ _ _ hReady =>
      prepare_walk hMemoize _ hReady (by simp) (Recursion.room_le_size []))
    ⟨hs, by simp, by simp⟩ hRun

theorem prepareAll_walk {a : Except Failure Unit} (hMemoize : ctx.memoize = true)
    (hs : s.Faithful ctx) (hRun : prepareAll ctx roots s = ended a t) :
    ∃ r, a = r.map (fun _ => ()) ∧ Walk ctx [] s roots r t := by
  obtain ⟨r, u, hFold⟩ := exists_ended (roots.foldlM (prepare ctx ctx.grid.size) []) s
  have hWalk := roots_walk hMemoize hs hFold
  rw [prepareAll_on hMemoize] at hRun
  cases r with
  | error e =>
    rw [bind_of_error hFold] at hRun
    obtain ⟨rfl, rfl⟩ := eq_of_ended_error hRun
    exact ⟨.error e, rfl, hWalk⟩
  | ok met =>
    rw [bind_of_ok hFold] at hRun
    obtain ⟨rfl, rfl⟩ := eq_of_ended_ok hRun
    exact ⟨.ok met, rfl, hWalk⟩

/-! ## What a walk achieves -/

theorem Walk.met_subset (h : Walk ctx met s roots r t) (hr : r = .ok met') : met ⊆ met' := by
  induction h generalizing met' with
  | done =>
    cases hr
    exact List.Subset.refl _
  | skip _ _ ih => exact ih hr
  | literal _ _ _ ih => exact ih hr
  | unreadable => cases hr
  | stuck => cases hr
  | putOff _ _ _ _ ihBelow ihRest =>
    exact fun x hx => ihRest hr (ihBelow rfl (List.mem_cons_of_mem _ hx))
  | failed => cases hr
  | settled _ _ _ _ _ _ ihBelow ihRest =>
    exact fun x hx => ihRest hr (ihBelow rfl (List.mem_cons_of_mem _ hx))

theorem Walk.not_settled_of_met (h : Walk ctx met s roots r t) (hz : z ∈ met)
    (hNot : z ∉ s.settled) : z ∉ t.settled := by
  induction h with
  | done => exact hNot
  | skip _ _ ih => exact ih hz hNot
  | literal hFresh _ _ ih =>
    refine ih hz ?_
    rw [Session.mem_kept, not_or]
    exact ⟨fun hEq => hFresh.idle (hEq ▸ hz), hNot⟩
  | unreadable => exact hNot
  | stuck _ _ ih => exact ih (List.mem_cons_of_mem _ hz) hNot
  | putOff _ below _ _ ihBelow ihRest =>
    exact ihRest (below.met_subset rfl (List.mem_cons_of_mem _ hz))
      (ihBelow (List.mem_cons_of_mem _ hz) hNot)
  | failed _ _ _ hRun _ ih =>
    rw [hRun.settled]
    exact ih (List.mem_cons_of_mem _ hz) hNot
  | settled h below _ hRun _ _ ihBelow ihRest =>
    refine ihRest (below.met_subset rfl (List.mem_cons_of_mem _ hz)) ?_
    rw [Session.mem_kept, not_or, hRun.settled]
    exact ⟨fun hEq => h.fresh.idle (hEq ▸ hz), ihBelow (List.mem_cons_of_mem _ hz) hNot⟩

theorem Enters.not_settled (h : Enters ctx met s c text refs)
    (below : Walk ctx (c :: met) (s.noted (.lookup c)) refs r t) : c ∉ t.settled :=
  below.not_settled_of_met List.mem_cons_self h.fresh.unsettled

theorem Walk.grows (h : Walk ctx met s roots r t) {cell : Option Cell}
    (hz : s.settled[z]? = some cell) : t.settled[z]? = some cell := by
  induction h with
  | done => exact hz
  | skip _ _ ih => exact ih hz
  | literal hFresh _ _ ih => exact ih (Session.kept_grows hFresh.unsettled hz)
  | unreadable => exact hz
  | stuck _ _ ih => exact ih hz
  | putOff _ _ _ _ ihBelow ihRest => exact ihRest (ihBelow hz)
  | failed _ _ _ hRun _ ih =>
    rw [hRun.settled]
    exact ih hz
  | settled h below _ hRun _ _ ihBelow ihRest =>
    refine ihRest (Session.kept_grows ?_ ?_)
    · rw [hRun.settled]
      exact h.not_settled below
    · rw [hRun.settled]
      exact ihBelow hz

theorem Walk.mem_grows (h : Walk ctx met s roots r t) (hz : z ∈ s.settled) : z ∈ t.settled := by
  rw [Std.HashMap.mem_iff_isSome_getElem?] at hz ⊢
  obtain ⟨cell, hCell⟩ := Option.isSome_iff_exists.mp hz
  exact Option.isSome_iff_exists.mpr ⟨cell, h.grows hCell⟩

theorem Walk.roots_known (h : Walk ctx met s roots r t) (hr : r = .ok met') (hz : z ∈ roots) :
    z ∈ t.settled ∨ z ∈ met' := by
  induction h generalizing met' with
  | done => cases hz
  | skip hKnown rest ih =>
    rcases List.mem_cons.mp hz with rfl | hz
    · exact hKnown.imp rest.mem_grows fun hMet => rest.met_subset hr hMet
    · exact ih hr hz
  | literal _ _ rest ih =>
    rcases List.mem_cons.mp hz with rfl | hz
    · exact .inl (rest.mem_grows (Session.mem_kept.mpr (.inl rfl)))
    · exact ih hr hz
  | unreadable => cases hr
  | stuck => cases hr
  | putOff _ below _ rest _ ih =>
    rcases List.mem_cons.mp hz with rfl | hz
    · exact .inr (rest.met_subset hr (below.met_subset rfl List.mem_cons_self))
    · exact ih hr hz
  | failed => cases hr
  | settled _ _ _ _ _ rest _ ih =>
    rcases List.mem_cons.mp hz with rfl | hz
    · exact .inl (rest.mem_grows (Session.mem_kept.mpr (.inl rfl)))
    · exact ih hr hz

theorem Walk.putOff_of_met (h : Walk ctx met s roots r t) (hr : r = .ok met') (hz : z ∈ met')
    (hNew : z ∉ met) (hNot : z ∉ t.settled) :
    ReachesCycle ctx z ∧ ∀ y, Refers ctx z y → y ∈ t.settled ∨ y ∈ met' := by
  induction h generalizing met' with
  | done =>
    cases hr
    exact absurd hz hNew
  | skip _ _ ih => exact ih hr hz hNew hNot
  | literal _ _ _ ih => exact ih hr hz hNew hNot
  | unreadable => cases hr
  | stuck => cases hr
  | failed => cases hr
  | @putOff met cs refs between s t u c text r h below hCycle rest ihBelow ihRest =>
    -- either the walk below `c` met the cell first, even as `c` itself, or the rest of the walk did
    by_cases hBetween : z ∈ between
    · have hStill : ∀ y, y ∈ t.settled ∨ y ∈ between → y ∈ u.settled ∨ y ∈ met' := fun y hy =>
        hy.imp rest.mem_grows fun hMet => rest.met_subset hr hMet
      by_cases hEq : z = c
      · subst hEq
        exact ⟨hCycle, fun y hy => hStill y (below.roots_known rfl (h.mem_references.mpr hy))⟩
      · obtain ⟨hAbove, hRefs⟩ := ihBelow rfl hBetween (by simp [hEq, hNew])
          (fun hSettled => hNot (rest.mem_grows hSettled))
        exact ⟨hAbove, fun y hy => hStill y (hRefs y hy)⟩
    · exact ihRest hr hz hBetween hNot
  | @settled met cs refs between s t u x c text v cell r h below _ hRun _ rest ihBelow ihRest =>
    by_cases hBetween : z ∈ between
    · have hLater : ∀ y, y ∈ t.settled → y ∈ x.settled := fun y hy =>
        rest.mem_grows (Session.mem_kept.mpr (.inr (hRun.settled ▸ hy)))
      have hNe : z ≠ c := by
        rintro rfl
        exact hNot (rest.mem_grows (Session.mem_kept.mpr (.inl rfl)))
      obtain ⟨hAbove, hRefs⟩ := ihBelow rfl hBetween (by simp [hNe, hNew])
        (fun hSettled => hNot (hLater z hSettled))
      exact ⟨hAbove, fun y hy =>
        (hRefs y hy).imp (hLater y) fun hMet => rest.met_subset hr hMet⟩
    · exact ihRest hr hz hBetween hNot

/-- A walk breaks off at a cell: its references cannot be read, or its formula fails by itself and
the cell does not record that. -/
inductive Breaks (ctx : EvaluationContext) (c : Coordinate) (e : Failure) : Prop
  | unreadable {text : String} (h : textReferences ctx text = .error e) : Breaks ctx c e
  | failed {text : String} {s t : Session} {v : Except Failure Value} (hRun : Computes ctx c s v t)
      (hCell : settledCell c text v = .error e) : Breaks ctx c e

theorem textReferences_ne_formula (text : String) (fault : FormulaFault) :
    textReferences ctx text ≠ .error (.formula fault) := by
  unfold textReferences
  split
  · exact Formula.references_ne_formula _ fault
  · exact nofun

theorem Walk.breaks (h : Walk ctx met s roots r t) (hr : r = .error e) :
    ∃ c, (c ∈ roots ∨ c.IsAddressable) ∧ Breaks ctx c e := by
  induction h with
  | done => cases hr
  | skip _ _ ih =>
    obtain ⟨c, hc, hBreaks⟩ := ih hr
    exact ⟨c, hc.imp_left (List.mem_cons_of_mem _), hBreaks⟩
  | literal _ _ _ ih =>
    obtain ⟨c, hc, hBreaks⟩ := ih hr
    exact ⟨c, hc.imp_left (List.mem_cons_of_mem _), hBreaks⟩
  | unreadable _ _ hText =>
    cases hr
    exact ⟨_, .inl List.mem_cons_self, .unreadable hText⟩
  | stuck h _ ih =>
    obtain ⟨c, hc, hBreaks⟩ := ih hr
    exact ⟨c, .inr (hc.elim (fun hMem => (h.mem_references.mp hMem).isAddressable) id), hBreaks⟩
  | putOff _ _ _ _ _ ih =>
    obtain ⟨c, hc, hBreaks⟩ := ih hr
    exact ⟨c, hc.imp_left (List.mem_cons_of_mem _), hBreaks⟩
  | failed _ _ _ hRun hCell =>
    cases hr
    exact ⟨_, .inl List.mem_cons_self, .failed hRun hCell⟩
  | settled _ _ _ _ _ _ _ ih =>
    obtain ⟨c, hc, hBreaks⟩ := ih hr
    exact ⟨c, hc.imp_left (List.mem_cons_of_mem _), hBreaks⟩

/-! ## Requests that are prepared -/

section Serves

variable {α : Type} {x : Step α} {a : Except Failure α} {address : Except Failure (Option String)}

def reported (address : Except Failure (Option String)) : Except Failure α → Except Failure α
  | .error .tooDeep => .error (depthFailure address)
  | a => a

theorem reportDepth_run {State : Type} {y : Evaluation State α} {s t : State}
    (h : y s = ended a t) : reportDepth address y s = ended (reported address a) t := by
  cases a with
  | ok b => exact reportDepth_of_ended address h (by simp [reported])
  | error e =>
    cases e with
    | tooDeep => exact reportDepth_of_tooDeep address h
    | formula fault => exact reportDepth_of_ended address h (by simp [reported])
    | numeric fault => exact reportDepth_of_ended address h (by simp [reported])

theorem reported_eq_error (h : reported address a = .error e) :
    a = .error e ∨ a = .error .tooDeep ∧ e = depthFailure address := by
  unfold reported at h
  split at h
  · cases h
    exact .inr ⟨rfl, rfl⟩
  · exact .inl h

/-- How a request runs that prepares some roots: at once with the memory off, and else after a walk
from the roots, unless that breaks off. -/
inductive Serves (ctx : EvaluationContext) (roots : List Coordinate)
    (address : Except Failure (Option String)) (x : Step α) (s : Session) :
    Except Failure α → Session → Prop
  | atOnce {a : Except Failure α} {t : Session} (hOff : ctx.memoize = false)
      (hRun : x s = ended a t) : Serves ctx roots address x s (reported address a) t
  | refused {e : Failure} {t : Session} (hOn : ctx.memoize = true)
      (walk : Walk ctx [] s roots (.error e) t) : Serves ctx roots address x s (.error e) t
  | walked {met : List Coordinate} {a : Except Failure α} {t u : Session}
      (hOn : ctx.memoize = true) (walk : Walk ctx [] s roots (.ok met) t)
      (ht : t.Faithful ctx) (hRun : x t = ended a u) :
      Serves ctx roots address x s (reported address a) u

theorem serves_of_run (hs : s.Faithful ctx)
    (hRun : (do prepareAll ctx roots; reportDepth address x) s = ended a u) :
    Serves ctx roots address x s a u := by
  cases hMemoize : ctx.memoize with
  | false =>
    obtain ⟨b, v, hInner⟩ := exists_ended x s
    rw [bind_of_ok (prepareAll_off hMemoize roots s), reportDepth_run hInner] at hRun
    obtain ⟨rfl, rfl⟩ := ended_inj hRun
    exact .atOnce hMemoize hInner
  | true =>
    obtain ⟨p, t, hPrepare⟩ := exists_ended (prepareAll ctx roots) s
    obtain ⟨r, rfl, walk⟩ := prepareAll_walk hMemoize hs hPrepare
    cases r with
    | error e =>
      rw [bind_of_error hPrepare] at hRun
      obtain ⟨rfl, rfl⟩ := eq_of_ended_error hRun
      exact .refused hMemoize walk
    | ok met =>
      obtain ⟨b, v, hInner⟩ := exists_ended x t
      rw [bind_of_ok hPrepare, reportDepth_run hInner] at hRun
      obtain ⟨rfl, rfl⟩ := ended_inj hRun
      exact .walked hMemoize walk (prepareAll_ok hs hPrepare).1 hInner

end Serves

theorem evaluateCell_serves (hs : s.Faithful ctx) {a : Except Failure (Option Cell)}
    (hRun : evaluateCell ctx c s = ended a t) :
    Serves ctx [c] (some <$> c.toAddress) (resolveCell ctx c) s a t :=
  serves_of_run hs hRun

theorem evaluate_serves (hs : s.Faithful ctx) {f : Formula} {a : Except Failure Value}
    (hReferences : f.references ctx.rangeLimit = .ok roots)
    (hRun : evaluate ctx f s = ended a t) :
    Serves ctx roots (.ok none) (f.evaluate (surroundings ctx (resolveCell ctx))) s a t := by
  rw [evaluate_eq] at hRun
  rw [hReferences, lift_ok, pure_bind] at hRun
  exact serves_of_run hs hRun

end Resolver
end Spreadsheet
