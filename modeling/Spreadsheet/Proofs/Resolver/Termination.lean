import Spreadsheet.Proofs.Resolver.Worklist

/-!
# Every request ends

Preparation is a loop that uses up a potential with every turn. The formulas that are evaluated
within one another belong to different formula cells of the grid, since a cell that waits is
reported and not entered again, so their number is a bound on the nesting. A limit that leaves room
for them is never reached, and which limit it is makes no difference.
-/

set_option autoImplicit false

namespace Spreadsheet

open Evaluation

namespace Resolver

variable {ctx : EvaluationContext} {s t : Session} {work work' : Worklist} {w : List Coordinate}
  {c : Coordinate} {d : Nat} {e : Failure}

/-! ## The loop -/

/-- The cells with a frame, the latest first. -/
def Worklist.underWay (work : Worklist) : List Coordinate := work.frames.map Frame.coordinate

/-- Every coordinate was entered once, and the frames belong to different formula cells that were
entered. -/
structure Worklist.IsTidy (ctx : EvaluationContext) (work : Worklist) : Prop where
  entered : work.entered.Nodup
  underWay : work.underWay.Nodup
  subset : work.underWay ⊆ work.entered
  formula : ∀ c ∈ work.underWay, c ∈ Recursion.formulaCoordinates ctx

theorem Entered.isTidy (h : Entered ctx work c s work' t) (hTidy : work.IsTidy ctx) :
    work'.IsTidy ctx := by
  cases h with
  | known => exact hTidy
  | literal hNew =>
    exact { hTidy with
      entered := List.nodup_cons.mpr ⟨hNew, hTidy.entered⟩
      subset := List.subset_cons_of_subset c hTidy.subset }
  | formula hNew hText =>
    refine ⟨List.nodup_cons.mpr ⟨hNew, hTidy.entered⟩,
      List.nodup_cons.mpr ⟨fun hc => hNew (hTidy.subset hc), hTidy.underWay⟩,
      List.cons_subset_cons c hTidy.subset, fun x hx => ?_⟩
    rcases List.mem_cons.mp hx with rfl | hx
    · exact Recursion.mem_formulaCoordinates hText
    · exact hTidy.formula x hx

theorem Turns.isTidy (h : Turns ctx work s work' t) (hTidy : work.IsTidy ctx) :
    work'.IsTidy ctx := by
  cases h with
  | root _ _ h => exact h.isTidy ⟨hTidy.entered, hTidy.underWay, hTidy.subset, hTidy.formula⟩
  | @reference z pending frame frames _ _ hFrames _ h =>
    -- the frame on top stays, with a reference less to enter
    have hSame : Worklist.underWay
        { work with frames := { frame with pending := pending } :: frames } = work.underWay := by
      rw [Worklist.underWay, Worklist.underWay, hFrames]
      rfl
    exact h.isTidy ⟨hTidy.entered, hSame ▸ hTidy.underWay, hSame ▸ hTidy.subset,
      hSame ▸ hTidy.formula⟩
  | @closed frame frames _ hFrames _ _ =>
    have hCons : work.underWay = frame.coordinate :: frames.map Frame.coordinate := by
      rw [Worklist.underWay, hFrames]
      rfl
    obtain ⟨hEntered, hNodup, hSubset, hFormula⟩ := hTidy
    rw [hCons] at hNodup hSubset hFormula
    exact ⟨hEntered, hNodup.of_cons, List.subset_of_cons_subset hSubset,
      fun x hx => hFormula x (List.mem_cons_of_mem _ hx)⟩

/-- The turns that the loop takes lead from one state to the other. -/
def Arrives (ctx : EvaluationContext) : Worklist × Session → Worklist × Session → Prop :=
  Relation.ReflTransGen fun x y => turn ctx x.1 x.2 = .ok (some y.1) y.2

theorem Arrives.isTidy {x y : Worklist × Session} (h : Arrives ctx x y) (hTidy : x.1.IsTidy ctx) :
    y.1.IsTidy ctx := by
  induction h with
  | refl => exact hTidy
  | tail _ hTurn ih => exact (turns_of_turn hTurn).isTidy ih

/-! ## Nested formulas -/

theorem length_stack_le {j : List Moment} (h : Journal.IsSound ctx j) :
    (Journal.stack j).length ≤ (Recursion.formulaCoordinates ctx).card := by
  rw [← List.toFinset_card_of_nodup h.nodup]
  apply Finset.card_le_card
  intro x hx
  obtain ⟨text, hText⟩ := h.formula x (List.mem_toFinset.mp hx)
  exact Recursion.mem_formulaCoordinates hText

theorem agreesOn_withLimit {n : Nat}
    (hLimits : DepthsAgree ctx { ctx with nestingLimit := n } [] ctx.nestingLimit n) :
    AgreesOn ctx (fun _ => True) { ctx with nestingLimit := n } :=
  ⟨fun _ _ => rfl, fun _ _ _ _ => trivial, rfl, rfl, rfl, hLimits⟩

theorem resolve_of_room (hRoom : Recursion.room ctx w ≤ d) (s : Session) :
    resolve ctx d w c s = resolve ctx (Recursion.room ctx w) w c s := by
  have hSelf : AgreesOn ctx (fun _ => True) ctx := agreesOn_withLimit (.inl rfl)
  exact hSelf.resolve trivial (.inr ⟨Nat.le_refl _, hRoom⟩) s

theorem room_nil : Recursion.room ctx [] = (Recursion.formulaCoordinates ctx).card := by
  simp [Recursion.room]

/-- The ways in which the request for a cell fails at a depth. -/
inductive Fails (ctx : EvaluationContext) (w : List Coordinate) (c : Coordinate) :
    Nat → Failure → Prop
  | circular {d : Nat} (hw : c ∈ w) : Fails ctx w c d (.formula (.circular (cyclePath w c)))
  | tooDeep {text : String} (hw : c ∉ w) (hText : formulaOf (ctx.grid.get? c) = some text) :
      Fails ctx w c 0 .tooDeep
  | cell {d : Nat} {text : String} {v : Except Failure Value} {e : Failure} {s t : Session}
      (hw : c ∉ w) (hText : formulaOf (ctx.grid.get? c) = some text)
      (hBody : (do (← treeOf text none).evaluate (surroundings ctx (resolve ctx d (c :: w))) :
        Step Value) s = ended v t)
      (hCell : settledCell c text v = .error e) : Fails ctx w c (d + 1) e

theorem fails_of_resolve (h : resolve ctx d w c s = .error e t) : Fails ctx w c d e := by
  cases hSettled : s.settled[c]? with
  | some cell =>
    rw [resolve_of_settled hSettled] at h
    cases h
  | none =>
    by_cases hw : c ∈ w
    · rw [resolve_of_mem hSettled hw] at h
      cases h
      exact .circular hw
    cases hText : formulaOf (ctx.grid.get? c) with
    | none =>
      rw [resolve_literal hSettled hw hText] at h
      cases h
    | some text =>
      cases d with
      | zero =>
        rw [resolve_zero hSettled hw hText] at h
        cases h
        exact .tooDeep hw hText
      | succ d =>
        obtain ⟨v, u, hBody⟩ := exists_ended
          (do (← treeOf text none).evaluate (surroundings ctx (resolve ctx d (c :: w))))
          ((s.noted (.lookup c)).noted (.start c))
        rw [resolve_succ hSettled hw hText (compute_run hBody)] at h
        cases hCell : settledCell c text v with
        | ok cell =>
          rw [hCell] at h
          cases h
        | error e' =>
          rw [hCell] at h
          cases h
          exact .cell hw hText hBody hCell

/-- With room for every formula cell that does not wait yet, no cell gets too deep. -/
theorem resolve_failsOnly (hRoom : Recursion.room ctx w ≤ d) :
    FailsOnly (· ≠ .tooDeep) (resolve ctx d w c) := by
  induction d generalizing w c with
  | zero =>
    intro s e t hRun
    cases fails_of_resolve hRun with
    | circular => simp
    | tooDeep hw hText =>
      -- no room is left, and the cell is a formula cell that does not wait
      have hLess := Recursion.room_cons_lt hw hText
      omega
  | succ d ih =>
    intro s e t hRun
    cases fails_of_resolve hRun with
    | circular => simp
    | @cell _ text v _ u u' hw hText hBody hCell =>
      have hLess := Recursion.room_cons_lt hw hText
      have hFormula : FailsOnly (· ≠ .tooDeep)
          (do (← treeOf text none).evaluate (surroundings ctx (resolve ctx d (c :: w))) :
            Step Value) := by
        rw [treeOf_none]
        cases hTree : Recursion.tree text with
        | error e =>
          obtain ⟨fault, rfl⟩ := tree_error hTree
          exact failsOnly_throw (by simp)
        | ok f =>
          exact f.evaluate_failsOnly
            { own := fun e he => he.ne_tooDeep
              noteCall := fun _ _ _ _ _ hNote => nomatch hNote
              settle := fun z _ => ih (by omega) }
      rcases settledCell_error hCell with ⟨rfl, -⟩ | hAddress
      · exact hFormula _ _ _ hBody
      · rintro rfl
        exact Recursion.toAddress_ne_tooDeep c hAddress

/-- Evaluation ends whatever the grid, the limits and the memory are. Every turn of preparation uses
up some of its potential; the turns enter no coordinate twice, give frames to formula cells only,
and come to what preparation comes to. No more formulas are under way at once than the grid has
formula cells: a depth with room for those that do not wait is never exceeded, a greater one makes
no difference, and neither does the limit on nesting once it leaves that room. So every request of
every session ends with an answer or a failure. -/
theorem every_request_ends (ctx : EvaluationContext) :
    (∀ work s work' t, turn ctx work s = .ok (some work') t →
      potential ctx work' < potential ctx work) ∧
    (∀ roots s work t, Arrives ctx ({ roots := roots }, s) (work, t) → work.IsTidy ctx) ∧
    (∀ roots s, prepareAll ctx roots s =
      if ctx.memoize then loop ctx { roots := roots } s else .ok () s) ∧
    (∀ requests j, j <:+ (after ctx requests).journal →
      (Journal.stack j).length ≤ (Recursion.formulaCoordinates ctx).card) ∧
    (∀ d w c s, Recursion.room ctx w ≤ d →
      resolve ctx d w c s = resolve ctx (Recursion.room ctx w) w c s ∧
        ∀ t, resolve ctx d w c s ≠ .error .tooDeep t) ∧
    (∀ (r : Request) n s, (Recursion.formulaCoordinates ctx).card ≤ ctx.nestingLimit →
      (Recursion.formulaCoordinates ctx).card ≤ n →
        r.run { ctx with nestingLimit := n } s = r.run ctx s) ∧
    ∀ (r : Request) s, ∃ answer t, r.run ctx s = ended answer t := by
  refine ⟨fun work s work' t h => (turns_of_turn h).potential_lt, fun roots s work t h => ?_,
    fun roots s => ?_, fun requests j hj => length_stack_le (after_sound ctx requests j hj),
    fun d w c s hRoom => ⟨resolve_of_room hRoom s,
      fun t hDeep => resolve_failsOnly hRoom _ _ _ hDeep rfl⟩,
    fun r n s hLimit hn => ?_, fun r s => exists_ended _ s⟩
  · exact h.isTidy ⟨.nil, .nil, List.Subset.refl _, by simp [Worklist.underWay]⟩
  · cases hOn : ctx.memoize with
    | false => simpa using prepareAll_off hOn roots s
    | true =>
      rw [prepareAll_on hOn, loop_roots]
      rfl
  · rw [← room_nil] at hLimit hn
    have hAgrees : AgreesOn ctx (fun _ => True) { ctx with nestingLimit := n } :=
      agreesOn_withLimit (.inr ⟨hLimit, hn⟩)
    exact hAgrees.run (fun _ _ => trivial) (fun _ => rfl) s

/-- With a cell on a cycle and one above it, two cells may wait and no more. -/
theorem every_request_ends_on_loopSheet :
    Recursion.room loopSheet [] = 2 ∧
      (∀ c s t, resolve loopSheet 2 [] c s ≠ .error .tooDeep t) ∧
      ∀ j, j <:+ (after loopSheet [.pass]).journal → (Journal.stack j).length ≤ 2 := by
  have hRoom : Recursion.room loopSheet [] = 2 := by decide
  obtain ⟨-, -, -, hNested, hDepth, -⟩ := every_request_ends loopSheet
  refine ⟨hRoom, fun c s t => (hDepth 2 [] c s hRoom.le).2 t, fun j hj => ?_⟩
  have hLength := hNested [.pass] j hj
  rwa [← room_nil, hRoom] at hLength

end Resolver
end Spreadsheet
