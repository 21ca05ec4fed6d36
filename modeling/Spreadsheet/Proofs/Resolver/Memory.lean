import Spreadsheet.Proofs.Resolver.Run

/-!
# The memory of a resolver

A session is faithful when every kept cell is the one that plain recursion settles, and nothing is
kept with the memory off. Resolving from a faithful session follows plain recursion and leaves the
session faithful, whatever happened before; only the limit on nesting may cut it short, and with the
memory off it does so exactly where plain recursion within the limit gets too deep.
-/

set_option autoImplicit false

namespace Spreadsheet

open Evaluation

/-- The memory is on where a cell is kept, and the cell is the one that plain recursion settles. -/
def Session.Faithful (ctx : EvaluationContext) (s : Session) : Prop :=
  ∀ c cell, s.settled[c]? = some cell →
    ctx.memoize = true ∧ Recursion.settle ctx [] c = .ok cell

namespace Session

variable {ctx : EvaluationContext} {s : Session} {c : Coordinate} {cell : Option Cell}

theorem faithful_empty (ctx : EvaluationContext) : Session.Faithful ctx {} := by
  intro c cell h
  simp at h

theorem Faithful.noted (h : s.Faithful ctx) (m : Moment) : (s.noted m).Faithful ctx := h

theorem Faithful.kept (h : s.Faithful ctx) (hMemoize : ctx.memoize = true)
    (hCell : Recursion.settle ctx [] c = .ok cell) : (s.kept c cell).Faithful ctx := by
  intro z cell' hz
  by_cases hEq : z = c
  · subst hEq
    rw [s.kept_settled_self] at hz
    cases hz
    exact ⟨hMemoize, hCell⟩
  · rw [s.kept_settled_of_ne cell hEq] at hz
    exact h z cell' hz

theorem Faithful.answered (h : s.Faithful ctx) (hCell : Recursion.settle ctx [] c = .ok cell) :
    (s.answered ctx.memoize c cell).Faithful ctx := by
  unfold Session.answered
  split
  · rename_i hMemoize
    exact h.kept hMemoize hCell
  · exact h

theorem Faithful.settled_eq_none (h : s.Faithful ctx) (hOff : ctx.memoize = false)
    (c : Coordinate) : s.settled[c]? = none := by
  cases hCell : s.settled[c]? with
  | none => rfl
  | some cell =>
    have hOn := (h c cell hCell).1
    rw [hOff] at hOn
    cases hOn

end Session

namespace Resolver

variable {ctx : EvaluationContext} {w : List Coordinate} {c : Coordinate} {text : String}

section Compute

variable {I : Session → Prop} {short : Prop}

/-- Computing a formula cell records what its formula comes to. -/
theorem compute_of_body {settle : Coordinate → Step (Option Cell)} {tree : Option Formula}
    {r : Except Failure Value} (hNoted : ∀ s m, I s → I (s.noted m))
    (hBody : Follows I (fun _ => False) (tooDeepIf short) r
      (do (← treeOf text tree).evaluate (surroundings ctx settle)))
    {s : Session} (hs : I s) :
    ∃ t, I t ∧ (compute ctx settle c text tree s = ended (settledCell c text r) t ∨
      short ∧ compute ctx settle c text tree s = .error .tooDeep t) := by
  obtain ⟨t, ht, hRun | ⟨_, ⟨hShort, rfl⟩, hRun⟩⟩ :=
    hBody (fun _ _ => not_false) (s.noted (.start c)) (hNoted s _ hs)
  · exact ⟨t.noted (.finish c), hNoted t _ ht, .inl (compute_run hRun)⟩
  · have hDeep := compute_run (r := .error .tooDeep) hRun
    exact ⟨t.noted (.finish c), hNoted t _ ht, .inr ⟨hShort, hDeep⟩⟩

/-- Computing a formula cell follows plain recursion when the cells that its formula asks for do. -/
theorem compute_follows {settle : Coordinate → Step (Option Cell)} {tree : Option Formula}
    (hNoted : ∀ s m, I s → I (s.noted m)) (hw : Recursion.Outlasts ctx w c)
    (hText : formulaOf (ctx.grid.get? c) = some text)
    (hTree : treeOf text tree = lift (Recursion.tree text))
    (hSettle : ∀ f, Recursion.tree text = .ok f → ∀ z, f.Asks ctx.rangeLimit z →
      Recursion.Outlasts ctx (c :: w) z →
      Follows I (fun _ => False) (tooDeepIf short) (Recursion.settle ctx (c :: w) z) (settle z))
    {s : Session} (hs : I s) :
    ∃ t, I t ∧
      (compute ctx settle c text tree s =
          ended (settledCell c text
            (Recursion.textValue ctx (Recursion.settle ctx (c :: w)) text)) t ∨
        short ∧ compute ctx settle c text tree s = .error .tooDeep t) := by
  refine compute_of_body hNoted ?_ hs
  rw [hTree, Recursion.textValue]
  cases hParse : Recursion.tree text with
  | error e => exact follows_throw e
  | ok f =>
    refine Recursion.evaluate_follows_value hw hText hParse rfl rfl ?_ (hSettle f hParse)
    exact fun key vs _ s hs => ⟨s.noted (.call key vs), hNoted s _ hs, .inl rfl⟩

end Compute

/-- Resolving follows plain recursion, unless there is too little room for the cells that do not
wait yet. -/
theorem resolve_follows (d : Nat) (hw : Recursion.Outlasts ctx w c) :
    Follows (Session.Faithful ctx) (fun _ => False) (tooDeepIf (d < Recursion.room ctx w))
      (Recursion.settle ctx w c) (resolve ctx d w c) := by
  induction d using Nat.strong_induction_on generalizing w c with
  | _ d ih =>
    intro _ s hs
    cases hSettled : s.settled[c]? with
    | some cell =>
      rw [resolve_of_settled hSettled, hw.settle_eq (hs c cell hSettled).2]
      exact ⟨s, hs, .inl rfl⟩
    | none =>
      by_cases hc : c ∈ w
      · rw [resolve_of_mem hSettled hc, Recursion.settle_of_mem hc]
        exact ⟨s, hs, .inl rfl⟩
      cases hText : formulaOf (ctx.grid.get? c) with
      | none =>
        rw [resolve_literal hSettled hc hText, Recursion.settle_literal hc hText]
        have hCell := Recursion.settle_literal (w := []) (by simp) hText
        exact ⟨_, (hs.noted (.lookup c)).answered hCell, .inl rfl⟩
      | some text =>
        have hRoom := Recursion.room_cons_lt hc hText
        cases d with
        | zero => exact ⟨_, hs.noted _, .inr ⟨_, ⟨by omega, rfl⟩, resolve_zero hSettled hc hText⟩⟩
        | succ d =>
          obtain ⟨t, ht, hRun | ⟨hShort, hRun⟩⟩ := compute_follows (fun s m hs => hs.noted m) hw
            hText (treeOf_none text) (fun _ _ z _ hz => ih d d.lt_succ_self hz)
            (hs.noted (.lookup c))
          · have hSettle := Recursion.settle_formula hc hText
            rw [resolve_succ hSettled hc hText hRun]
            cases hCell : settledCell c text
                (Recursion.textValue ctx (Recursion.settle ctx (c :: w)) text) with
            | ok cell =>
              rw [Recursion.settledBy_of_ok hCell] at hSettle
              rw [hSettle]
              have hAlone := Recursion.settle_nil_of_ok hSettle
              exact ⟨_, ht.answered hAlone, .inl rfl⟩
            | error e =>
              rw [Recursion.settledBy_of_error hCell] at hSettle
              rw [hSettle]
              exact ⟨t, ht, .inl rfl⟩
          · have hDeep := resolve_succ (r := .error .tooDeep) hSettled hc hText hRun
            exact ⟨t, ht, .inr ⟨_, ⟨by omega, rfl⟩, hDeep⟩⟩

/-- What a formula asks for on behalf of nobody that waits. -/
theorem evaluate_follows (d : Nat) (f : Formula) :
    Follows (Session.Faithful ctx) (fun _ => False) (tooDeepIf (d < Recursion.room ctx []))
      (Recursion.value ctx (Recursion.settle ctx []) f)
      (f.evaluate (surroundings ctx (resolve ctx d []))) :=
  Formula.evaluate_follows f <| Recursion.agree_of_follows rfl rfl
    (fun key vs _ s hs => ⟨s.noted (.call key vs), hs, .inl rfl⟩)
    fun _ _ => resolve_follows d Recursion.outlasts_nil

/-! ## With the memory off -/

/-- Without memory, resolving is plain recursion within the limit. -/
theorem resolve_follows_within (hOff : ctx.memoize = false) (d : Nat) :
    Follows (Session.Faithful ctx) (fun _ => False) (tooDeepIf False)
      (Recursion.settleWithin ctx d w c)
      (resolve ctx d w c) := by
  induction d using Nat.strong_induction_on generalizing w c with
  | _ d ih =>
    intro _ s hs
    have hSettled := hs.settled_eq_none hOff c
    by_cases hc : c ∈ w
    · rw [resolve_of_mem hSettled hc, Recursion.settleWithin_of_mem d hc]
      exact ⟨s, hs, .inl rfl⟩
    cases hText : formulaOf (ctx.grid.get? c) with
    | none =>
      rw [resolve_literal hSettled hc hText, Recursion.settleWithin_literal d hc hText]
      have hCell := Recursion.settle_literal (w := []) (by simp) hText
      exact ⟨_, (hs.noted (.lookup c)).answered hCell, .inl rfl⟩
    | some text =>
      cases d with
      | zero =>
        rw [resolve_zero hSettled hc hText, Recursion.settleWithin_zero hc hText]
        exact ⟨_, hs.noted (.lookup c), .inl rfl⟩
      | succ d =>
        have hBody : Follows (Session.Faithful ctx) (fun _ => False) (tooDeepIf False)
            (Recursion.textValue ctx (Recursion.settleWithin ctx d (c :: w)) text)
            (do (← treeOf text none).evaluate (surroundings ctx (resolve ctx d (c :: w)))) := by
          rw [treeOf_none, Recursion.textValue]
          cases hTree : Recursion.tree text with
          | error e => exact follows_throw e
          | ok f =>
            exact Formula.evaluate_follows f <| Recursion.agree_of_follows rfl rfl
              (fun key vs _ s hs => ⟨s.noted (.call key vs), hs, .inl rfl⟩)
              fun z _ => ih d d.lt_succ_self
        obtain ⟨t, ht, hRun | ⟨hShort, -⟩⟩ := compute_of_body (c := c)
          (fun _ _ hs => hs) hBody (hs.noted (.lookup c))
        · rw [resolve_succ hSettled hc hText hRun, Recursion.settleWithin_succ d hc hText,
            Recursion.settledBy, hOff]
          cases settledCell c text
              (Recursion.textValue ctx (Recursion.settleWithin ctx d (c :: w)) text) with
          | ok cell => exact ⟨t, ht, .inl rfl⟩
          | error e => exact ⟨t, ht, .inl rfl⟩
        · exact hShort.elim

theorem evaluate_follows_within (hOff : ctx.memoize = false) (d : Nat) (f : Formula) :
    Follows (Session.Faithful ctx) (fun _ => False) (tooDeepIf False)
      (Recursion.value ctx (Recursion.settleWithin ctx d []) f)
      (f.evaluate (surroundings ctx (resolve ctx d []))) :=
  Formula.evaluate_follows f <| Recursion.agree_of_follows rfl rfl
    (fun key vs _ s hs => ⟨s.noted (.call key vs), hs, .inl rfl⟩)
    fun _ _ => resolve_follows_within hOff d

end Resolver
end Spreadsheet
