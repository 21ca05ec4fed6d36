import Spreadsheet.Proofs.Evaluation.FirstFailure
import Spreadsheet.Proofs.Resolver.Advance

/-!
# The descent to a cycle

Once preparation has settled what it can, a request for a cell above a cycle goes from each cell to
its first reference above a cycle, since all references before that one are settled. Which way it
goes is a matter of the sheet alone. So one request cannot close a cycle where another one, with
other cells in its memory, gets too deep.
-/

set_option autoImplicit false

namespace Spreadsheet

open Evaluation

/-- The references of the cell can be read. -/
def IsLegible (ctx : EvaluationContext) (c : Coordinate) : Prop :=
  ∀ text, Resolver.formulaOf (ctx.grid.get? c) = some text →
    ∃ cs, Resolver.textReferences ctx text = .ok cs

namespace Session

variable {ctx : EvaluationContext} {s : Session} {c : Coordinate} {K : Coordinate → Prop}

/-- A session with some settled cells. All its cells can be read, and those above a cycle failed. -/
structure Rests (ctx : EvaluationContext) (K : Coordinate → Prop) (s : Session) : Prop where
  settled : ∀ x, K x → x ∈ s.settled
  legible : ∀ x ∈ s.settled, IsLegible ctx x
  clean : ∀ x cell, s.settled[x]? = some cell → errorOf cell = none → ¬ ReachesCycle ctx x

theorem Rests.answered (h : s.Rests ctx K) {cell : Option Cell} (memoize : Bool)
    (hLegible : IsLegible ctx c) (hClean : errorOf cell = none → ¬ ReachesCycle ctx c) :
    (s.answered memoize c cell).Rests ctx K := by
  unfold Session.answered
  split
  · refine ⟨fun x hx => mem_kept.mpr (.inr (h.settled x hx)), fun x hx => ?_, ?_⟩
    · rcases mem_kept.mp hx with rfl | hx
      · exact hLegible
      · exact h.legible x hx
    · intro x cell' hx
      by_cases hEq : x = c
      · subst hEq
        rw [s.kept_settled_self] at hx
        cases hx
        exact hClean
      · rw [s.kept_settled_of_ne cell hEq] at hx
        exact h.clean x cell' hx
  · exact h

end Session

namespace Resolver

variable {ctx : EvaluationContext} {s t : Session} {w met roots cs : List Coordinate}
  {c z z' : Coordinate} {text : String} {d : Nat} {e : Failure} {K C : Coordinate → Prop}

/-! ## The way down -/

/-- The second cell is the first reference of the first one that is above a cycle. -/
def Descends (ctx : EvaluationContext) (c z : Coordinate) : Prop :=
  ∃ text done rest, formulaOf (ctx.grid.get? c) = some text ∧
    textReferences ctx text = .ok (done ++ z :: rest) ∧ ReachesCycle ctx z ∧
    ∀ x ∈ done, ¬ ReachesCycle ctx x

theorem Descends.unique (h : Descends ctx c z) (h' : Descends ctx c z') : z = z' := by
  obtain ⟨text, done, rest, hText, hReferences, hz, hDone⟩ := h
  obtain ⟨text', done', rest', hText', hReferences', hz', hDone'⟩ := h'
  obtain rfl : text = text' := Option.some.inj (hText.symm.trans hText')
  have hLists := Except.ok.inj (hReferences.symm.trans hReferences')
  exact eq_of_first_unclean hLists hDone hDone' (not_not.mpr hz) (not_not.mpr hz')

/-- While some cells wait and `d` more may, the descent from a cell comes back to one that waits. -/
inductive Closes (ctx : EvaluationContext) : Nat → List Coordinate → Coordinate → Prop
  | back {d : Nat} {w : List Coordinate} {c : Coordinate} (h : c ∈ w) : Closes ctx d w c
  | down {d : Nat} {w : List Coordinate} {c z : Coordinate} (hc : c ∉ w)
      (hz : Descends ctx c z) (h : Closes ctx d (c :: w) z) : Closes ctx (d + 1) w c

/-- While some cells wait and `d` more may, the descent from a cell comes to one that may not. -/
inductive Exceeds (ctx : EvaluationContext) : Nat → List Coordinate → Coordinate → Prop
  | here {w : List Coordinate} {c : Coordinate} (hc : c ∉ w) : Exceeds ctx 0 w c
  | down {d : Nat} {w : List Coordinate} {c z : Coordinate} (hc : c ∉ w)
      (hz : Descends ctx c z) (h : Exceeds ctx d (c :: w) z) : Exceeds ctx (d + 1) w c

theorem Closes.not_exceeds (h : Closes ctx d w c) : ¬ Exceeds ctx d w c := by
  induction h with
  | back hMem =>
    intro hExceeds
    cases hExceeds with
    | here hc => exact hc hMem
    | down hc => exact hc hMem
  | down hc hz _ ih =>
    intro hExceeds
    cases hExceeds with
    | down _ hz' hBelow =>
      obtain rfl := hz.unique hz'
      exact ih hBelow

/-! ## Going down -/

/-- How a request for a cell fails that is above a cycle. -/
structure FailsBelow (ctx : EvaluationContext) (d : Nat) (w : List Coordinate) (c : Coordinate)
    (e : Failure) : Prop where
  cycle : ReachesCycle ctx c
  circular : ∀ path, e = .formula (.circular path) → Closes ctx d w c
  tooDeep : e = .tooDeep → Exceeds ctx d w c

/-- Circular references and excessive depth are the doing of cells above a cycle, all other failures
are no cell's. -/
def cycleVerdict (ctx : EvaluationContext) (d : Nat) (w : List Coordinate) :
    Formula.Verdict Session where
  clean x := ¬ ReachesCycle ctx x
  own e := (∀ path, e ≠ .formula (.circular path)) ∧ e ≠ .tooDeep
  blames _ c e := FailsBelow ctx d w c e

/-- A request for a cell answers without an error only where there is no cycle below the cell. -/
def GoesDown (ctx : EvaluationContext) (K : Coordinate → Prop) (d : Nat) (w : List Coordinate)
    (c : Coordinate) (x : Step (Option Cell)) : Prop :=
  ∀ s : Session, s.Rests ctx K → ∃ r t, x s = ended r t ∧ t.Rests ctx K ∧
    (∀ cell, r = .ok cell → errorOf cell = none → ¬ ReachesCycle ctx c) ∧
    ∀ e, r = .error e → FailsBelow ctx d w c e

theorem resolver_discernsCycles (hFunctions : ctx.functions.ReportsNoCycle)
    (h : ∀ z ∈ cs, GoesDown ctx K d w z (resolve ctx d w z)) :
    Formula.Discerns (Session.Rests ctx K) (cycleVerdict ctx d w) (· ∈ cs)
      (surroundings ctx (resolve ctx d w)) where
  plain e he := by
    constructor
    · rintro path rfl
      cases he
    · rintro rfl
      cases he
  reported fault hReports := by
    constructor
    · rintro path ⟨⟩
      exact hFunctions.not_reports path hReports
    · exact nofun
  failed _ _ := ⟨nofun, nofun⟩
  noteCall key arguments s hs :=
    ⟨.ok (), s.noted (.call key arguments), rfl, ⟨hs.settled, hs.legible, hs.clean⟩,
      fun _ _ => nofun, nofun⟩
  settle z address hz _ := by
    refine Formula.comesTo_valueOf fun s hs => ?_
    obtain ⟨r, t, hRun, ht, hClean, hFails⟩ := h z hz s hs
    refine ⟨r, t, hRun, ht, hClean, fun _ _ _ _ => .inl ⟨nofun, nofun⟩, fun e he => ?_⟩
    exact .inr ⟨[], z, [], rfl, hFails e he, nofun⟩

/-- What the formula of a cell comes to, in the order of the references of its text. -/
theorem body_comesTo (hFunctions : ctx.functions.ReportsNoCycle)
    (hReferences : textReferences ctx text = .ok cs)
    (h : ∀ z ∈ cs, GoesDown ctx K d w z (resolve ctx d w z)) :
    Formula.ComesTo (Session.Rests ctx K) (cycleVerdict ctx d w) cs
      (do (← treeOf text none).evaluate (surroundings ctx (resolve ctx d w)) : Step Value) := by
  rw [treeOf_none]
  cases hTree : Recursion.tree text with
  | error e =>
    obtain ⟨fault, rfl⟩ := tree_error hTree
    exact Formula.comesTo_throw cs ⟨nofun, nofun⟩
  | ok f =>
    rw [textReferences, hTree] at hReferences
    exact f.evaluate_comesTo (resolver_discernsCycles hFunctions h) hReferences fun _ hz => hz

/-- A cell above a cycle does not get past its first reference above one without an error. -/
theorem failsBelow_of_body {v : Except Failure Value} (hw : c ∉ w)
    (hText : formulaOf (ctx.grid.get? c) = some text)
    (hReferences : textReferences ctx text = .ok cs) (hCycle : ReachesCycle ctx c)
    (hBlames : ∀ e, v = .error e → Formula.BlamesFirst (cycleVerdict ctx d (c :: w)) cs t e)
    (h : settledCell c text v = .error e) : FailsBelow ctx (d + 1) w c e := by
  rcases settledCell_error h with ⟨hValue, -⟩ | hAddress
  · rcases hBlames e hValue with ⟨hCircular, hDeep⟩ | ⟨done, z, rest, rfl, hFails, hDone⟩
    · exact ⟨hCycle, fun path he => absurd he (hCircular path), fun he => absurd he hDeep⟩
    · have hz : Descends ctx c z := ⟨text, done, rest, hText, hReferences, hFails.cycle, hDone⟩
      exact ⟨hCycle, fun path he => .down hw hz (hFails.circular path he),
        fun he => .down hw hz (hFails.tooDeep he)⟩
  · rcases Coordinate.toAddress_error hAddress with ⟨fault, rfl⟩ | ⟨-, rfl⟩
    · exact ⟨hCycle, nofun, nofun⟩
    · exact ⟨hCycle, nofun, nofun⟩

theorem resolve_goesDown_of_formula (hFunctions : ctx.functions.ReportsNoCycle)
    (hs : s.Rests ctx K) (hSettled : s.settled[c]? = none) (hw : c ∉ w)
    (hText : formulaOf (ctx.grid.get? c) = some text)
    (hReferences : textReferences ctx text = .ok cs) (hCycle : ReachesCycle ctx c)
    (h : ∀ z ∈ cs, GoesDown ctx K d (c :: w) z (resolve ctx d (c :: w) z)) :
    ∃ r t, resolve ctx (d + 1) w c s = ended r t ∧ t.Rests ctx K ∧
      (∀ cell, r = .ok cell → errorOf cell = none → ¬ ReachesCycle ctx c) ∧
      ∀ e, r = .error e → FailsBelow ctx (d + 1) w c e := by
  have hNoted : ((s.noted (.lookup c)).noted (.start c)).Rests ctx K :=
    ⟨hs.settled, hs.legible, hs.clean⟩
  obtain ⟨v, t, hBody, ht, hOk, hBlames⟩ := body_comesTo hFunctions hReferences h _ hNoted
  rw [resolve_succ hSettled hw hText (compute_run hBody)]
  cases hCell : settledCell c text v with
  | error e =>
    refine ⟨.error e, t.noted (.finish c), rfl, ⟨ht.settled, ht.legible, ht.clean⟩, nofun, ?_⟩
    rintro _ ⟨⟩
    exact failsBelow_of_body hw hText hReferences hCycle hBlames hCell
  | ok cell =>
    -- with a value, the formula would have got past all of its references
    have hFailed : errorOf (some cell) = none → ¬ ReachesCycle ctx c := by
      intro hNone
      rcases settledCell_ok hCell with ⟨a, rfl, -⟩ | ⟨fault, -, rfl⟩
      · obtain ⟨z, hz, hBelow⟩ := hCycle.exists_refers
        exact absurd hBelow (hOk a rfl z ((mem_textReferences hReferences hText).mpr hz))
      · cases hNone
    have hRests : (t.noted (.finish c)).Rests ctx K := ⟨ht.settled, ht.legible, ht.clean⟩
    have hLegible : IsLegible ctx c := fun text' hText' => by
      obtain rfl : text = text' := Option.some.inj (hText.symm.trans hText')
      exact ⟨cs, hReferences⟩
    refine ⟨.ok (some cell), _, rfl, hRests.answered _ hLegible hFailed, ?_, nofun⟩
    rintro _ ⟨⟩
    exact hFailed

/-- Requests go down from cell to cell where every cell that is not settled yet is above a cycle and
can be read. -/
theorem resolve_goesDown (hFunctions : ctx.functions.ReportsNoCycle)
    (h : Cover ctx (fun _ => True) (fun x => ReachesCycle ctx x ∧ IsLegible ctx x) K C) (d : Nat)
    (hc : C c) : GoesDown ctx K d w c (resolve ctx d w c) := by
  induction d using Nat.strong_induction_on generalizing w c with
  | _ d ih =>
    intro s hs
    cases hSettled : s.settled[c]? with
    | some cell =>
      refine ⟨.ok cell, s, resolve_of_settled hSettled, hs, ?_, nofun⟩
      rintro _ ⟨⟩
      exact hs.clean c cell hSettled
    | none =>
      have hNew : c ∉ s.settled := by simp [Std.HashMap.mem_iff_isSome_getElem?, hSettled]
      have hNot : ¬ K c := fun hK => hNew (hs.settled c hK)
      obtain ⟨hCycle, hLegible⟩ := h.waits c hc hNot
      by_cases hw : c ∈ w
      · refine ⟨.error _, s, resolve_of_mem hSettled hw, hs, nofun, ?_⟩
        rintro _ ⟨⟩
        exact ⟨hCycle, fun _ _ => .back hw, nofun⟩
      -- a cell above a cycle has a formula
      obtain ⟨z, hz, -⟩ := hCycle.exists_refers
      obtain ⟨text, -, hText, -⟩ := hz
      cases d with
      | zero =>
        refine ⟨.error .tooDeep, s.noted (.lookup c), resolve_zero hSettled hw hText,
          ⟨hs.settled, hs.legible, hs.clean⟩, nofun, ?_⟩
        rintro _ ⟨⟩
        exact ⟨hCycle, nofun, fun _ => .here hw⟩
      | succ d =>
        obtain ⟨cs, hReferences⟩ := hLegible text hText
        refine resolve_goesDown_of_formula hFunctions hs hSettled hw hText hReferences hCycle
          fun z hz => ih d d.lt_succ_self (h.refers c z hc hNot ?_)
        exact (mem_textReferences hReferences hText).mp hz

end Resolver
end Spreadsheet
