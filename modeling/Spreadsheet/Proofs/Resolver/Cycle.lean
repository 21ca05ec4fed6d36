import Spreadsheet.Proofs.Resolver.Agreement
import Spreadsheet.Proofs.Resolver.Walk

/-!
# Reported cycles

A circular reference that a request ends in is a cycle of the grid: its path goes from formula cell
to formula cell by references and comes back to where it started, with no other repetition. The
waiting cells form such a path, because each of them was asked for by the next one outwards. Only a
function can report a circular reference that is none.
-/

set_option autoImplicit false

namespace Spreadsheet

open Evaluation

theorem Refers.exists_formula {ctx : EvaluationContext} {c z : Coordinate} (h : Refers ctx c z) :
    ∃ text, Resolver.formulaOf (ctx.grid.get? c) = some text := by
  obtain ⟨text, -, hText, -⟩ := h
  exact ⟨text, hText⟩

namespace Resolver

variable {ctx : EvaluationContext} {s t : Session} {w path roots : List Coordinate}
  {c z : Coordinate} {text : String} {e : Failure} {T : Coordinate → Prop}

/-- The path of a cycle: it ends where it starts and meets every other coordinate once. -/
structure IsCyclePath (ctx : EvaluationContext) (path : List Coordinate) : Prop where
  two_le_length : 2 ≤ path.length
  closed : path.head? = path.getLast?
  nodup : path.tail.Nodup
  formula : ∀ x ∈ path, ∃ text, formulaOf (ctx.grid.get? x) = some text
  refers : path.IsChain (Refers ctx)

/-! ## Waiting cells -/

/-- The cells that wait, from the innermost one outwards: each was asked for by the next one. -/
structure Trail (ctx : EvaluationContext) (w : List Coordinate) (c : Coordinate) : Prop where
  refers : (c :: w).IsChain fun x y => Refers ctx y x
  nodup : w.Nodup

theorem trail_nil (c : Coordinate) : Trail ctx [] c := ⟨.singleton c, .nil⟩

theorem Trail.cons (h : Trail ctx w c) (hc : c ∉ w) (hz : Refers ctx c z) :
    Trail ctx (c :: w) z :=
  ⟨List.isChain_cons_cons.mpr ⟨hz, h.refers⟩, List.nodup_cons.mpr ⟨hc, h.nodup⟩⟩

theorem Trail.exists_refers (h : Trail ctx w c) {x : Coordinate} (hx : x ∈ w) :
    ∃ y, Refers ctx x y := by
  obtain ⟨hRefers, -⟩ := h
  induction w generalizing c with
  | nil => cases hx
  | cons y w ih =>
    obtain ⟨hHead, hRest⟩ := List.isChain_cons_cons.mp hRefers
    rcases List.mem_cons.mp hx with rfl | hx
    · exact ⟨c, hHead⟩
    · exact ih hx hRest

theorem cyclePath_eq {before after : List Coordinate} (hc : c ∉ before) :
    cyclePath (before ++ c :: after) c = (c :: before ++ [c]).reverse := by
  have hTake : (before ++ c :: after).takeWhile (· != c) = before := by
    rw [List.takeWhile_append_of_pos, List.takeWhile_cons_of_neg (by simp), List.append_nil]
    intro x hx
    simp only [bne_iff_ne, ne_eq]
    rintro rfl
    exact hc hx
  rw [cyclePath, hTake]
  simp

/-- Asking for a waiting cell closes a cycle. -/
theorem Trail.isCyclePath (h : Trail ctx w c) (hc : c ∈ w) : IsCyclePath ctx (cyclePath w c) := by
  obtain ⟨before, after, rfl, hBefore⟩ := List.eq_append_cons_of_mem hc
  have hPrefix : before ++ [c] <+: before ++ c :: after := ⟨after, by simp⟩
  have hMem : ∀ x ∈ (c :: before ++ [c]).reverse, x ∈ before ++ c :: after := by
    intro x hx
    simp only [List.mem_reverse, List.cons_append, List.mem_cons, List.mem_append,
      List.not_mem_nil, or_false] at hx
    rcases hx with rfl | hx | rfl
    · exact hc
    · exact List.mem_append_left _ hx
    · exact hc
  rw [cyclePath_eq hBefore]
  constructor
  · simp
  · rw [List.head?_reverse, List.getLast?_reverse, List.getLast?_concat]
    rfl
  · have hNodup : (before ++ [c]).Nodup := h.nodup.sublist hPrefix.sublist
    simpa using (before.reverse_perm.append_right [c]).nodup_iff.mpr hNodup
  · intro x hx
    obtain ⟨y, hy⟩ := h.exists_refers (hMem x hx)
    exact hy.exists_formula
  · rw [List.isChain_reverse]
    exact h.refers.prefix (List.cons_prefix_cons.mpr ⟨rfl, hPrefix⟩)

theorem IsCyclePath.onCycle (h : IsCyclePath ctx path) (hc : path.head? = some c) :
    OnCycle ctx c := by
  obtain ⟨hLength, hClosed, -, -, hRefers⟩ := h
  match path, hLength with
  | x :: y :: rest, _ =>
    cases hc
    obtain ⟨hFirst, hRest⟩ := List.isChain_cons_cons.mp hRefers
    have hLast : (y :: rest).getLast (List.cons_ne_nil _ _) = c := by
      simpa [List.getLast?_eq_some_getLast] using hClosed.symm
    exact .head' hFirst (List.relationReflTransGen_of_exists_isChain_cons _ hRest hLast)

theorem head?_cyclePath (w : List Coordinate) (c : Coordinate) :
    (cyclePath w c).head? = some c := rfl

/-! ## Circular failures -/

/-- A circular failure is a cycle that starts in `T`, unless a function reports it. -/
def CycleFault (ctx : EvaluationContext) (T : Coordinate → Prop) (e : Failure) : Prop :=
  ∀ path, e = .formula (.circular path) →
    (IsCyclePath ctx path ∧ ∃ x, path.head? = some x ∧ T x) ∨
      ctx.functions.Reports (.circular path)

theorem CycleFault.of_own (he : Formula.OwnFailure ctx.functions e) : CycleFault ctx T e := by
  rintro path rfl
  cases he with
  | reported hFunction hFault => exact .inr ⟨_, _, _, hFunction, hFault⟩

theorem settledCell_circular {v : Except Failure Value}
    (h : settledCell c text v = .error (.formula (.circular path))) :
    v = .error (.formula (.circular path)) := by
  rcases settledCell_error h with ⟨hValue, -⟩ | hAddress
  · exact hValue
  · rcases Coordinate.toAddress_error hAddress with ⟨fault, hFault⟩ | ⟨-, hFault⟩ <;> cases hFault

theorem tracks_cycleFault (hT : ∀ x y, T x → Refers ctx x y → T y) :
    Tracks ctx (fun w c => Trail ctx w c ∧ T c) (fun _ _ => True)
      (fun _ => failing (CycleFault ctx T)) where
  evaluates w := {
    composes := failing_composes
    own := by
      rintro e he s _ ⟨⟩
      exact .of_own he
    parsing := by
      rintro fault s _ ⟨⟩ path ⟨⟩
    call := by
      rintro s key arguments _ ⟨⟩ }
  circular := by
    rintro w c s ⟨hTrail, hc⟩ hMem _ ⟨⟩ path ⟨⟩
    exact .inl ⟨hTrail.isCyclePath hMem, c, head?_cyclePath w c, hc⟩
  literal := by
    rintro w c s hP hFresh hText _ ⟨⟩
  tooDeep := by
    rintro w c s text hP hFresh hText _ ⟨⟩ path ⟨⟩
  formula := by
    rintro w c s t text v ⟨hTrail, hc⟩ hFresh hText hBody -
    have hEnds := hBody fun z hz => ⟨hTrail.cons hFresh.idle hz, hT c z hc hz⟩
    cases hCell : settledCell c text v with
    | ok cell => rintro _ ⟨⟩
    | error e =>
      rintro _ ⟨⟩ path rfl
      rw [settledCell_circular hCell] at hEnds
      exact hEnds _ rfl path rfl

/-- Every circular failure of a request for a cell is a cycle below it. -/
theorem resolve_cycleFault (d : Nat) (hTrail : Trail ctx w c) (hc : T c)
    (hT : ∀ x y, T x → Refers ctx x y → T y) :
    FailsOnly (CycleFault ctx T) (resolve ctx d w c) :=
  failsOnly_iff_leads.mpr <|
    (tracks_cycleFault hT).resolve (fun _ _ _ _ _ _ _ _ => trivial) d ⟨hTrail, hc⟩

theorem CycleFault.of_breaks (h : Breaks ctx c e) : CycleFault ctx T e := by
  cases h with
  | unreadable hText =>
    rintro path rfl
    exact absurd hText (textReferences_ne_formula _ _)
  | failed hRun hCell =>
    rintro path rfl
    rcases hRun.own _ (settledCell_circular hCell) with hOwn | ⟨fault, hFault⟩
    · exact CycleFault.of_own hOwn path rfl
    · cases hFault

end Resolver
end Spreadsheet
