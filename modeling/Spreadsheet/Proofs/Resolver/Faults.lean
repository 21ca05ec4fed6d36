import Spreadsheet.Proofs.Evaluation.Numeric
import Spreadsheet.Proofs.Resolver.Walk
import Spreadsheet.Proofs.Resolver.Request

/-!
# The failures that requests end with

A fault of a formula is recorded in its cell, apart from circular references and from nesting beyond
the limit, which a pass still records. Only two kinds of failures are not caught: a numeric fault,
which comes from a node of a formula that the request reaches, and a cell without an address.
-/

set_option autoImplicit false

namespace Spreadsheet

open Evaluation

/-- A node of the formula ends it in a numeric fault, over plain recursion. -/
def Formula.Strains (ctx : EvaluationContext) (f : Formula) (fault : NumericFault) : Prop :=
  ∃ g ∈ f.nodes, ∃ w, g.NumericSource (Recursion.surroundings ctx (Recursion.settle ctx w)) fault

namespace Resolver

variable {ctx : EvaluationContext} {s t : Session} {w : List Coordinate} {c : Coordinate}
  {text : String} {f : Formula} {e : Failure} {T : Coordinate → Prop}

/-- The formula of the cell ends in the numeric fault by itself. -/
def Strained (ctx : EvaluationContext) (c : Coordinate) (fault : NumericFault) : Prop :=
  ∃ text f, formulaOf (ctx.grid.get? c) = some text ∧ Recursion.tree text = .ok f ∧
    f.Strains ctx fault

/-- A numeric fault comes from the formula of a cell in `T`. -/
def Sourced (ctx : EvaluationContext) (T : Coordinate → Prop) (e : Failure) : Prop :=
  ∀ fault, e = .numeric fault → ∃ y, T y ∧ Strained ctx y fault

/-- A failure that cells in `T` do not record. -/
structure Escapes (ctx : EvaluationContext) (T : Coordinate → Prop) (e : Failure) : Prop where
  unrecorded : ¬ Recursion.Recordable e
  sourced : Sourced ctx T e

/-! ## Plain recursion -/

theorem strains_of_references (h : f.references ctx.rangeLimit = .error e) :
    ∃ fault, e = .numeric fault ∧ f.Strains ctx fault := by
  obtain ⟨g, hg, fault, hFault, hSource⟩ : ∃ g ∈ f.nodes, ∃ fault, e = .numeric fault ∧
      g.NumericSource (Recursion.surroundings ctx (Recursion.settle ctx [])) fault :=
    f.references_numeric h
  exact ⟨fault, hFault, g, hg, [], hSource⟩

theorem sourced_formula (fault : FormulaFault) : Sourced ctx T (.formula fault) := nofun

theorem escapes_circular (path : List Coordinate) :
    Escapes ctx T (.formula (.circular path)) where
  unrecorded := by
    rintro ⟨_, ⟨⟩, hCircular⟩
    cases hCircular
  sourced := sourced_formula _

/-- A numeric fault of a formula comes from a node of it or from a cell that it asks for. -/
theorem value_sourced (h : Recursion.value ctx (Recursion.settle ctx w) f = .error e)
    (hSettle : ∀ z, f.Asks ctx.rangeLimit z → ∀ e, Recursion.settle ctx w z = .error e →
      Sourced ctx T e) :
    ∀ fault, e = .numeric fault → f.Strains ctx fault ∨ ∃ y, T y ∧ Strained ctx y fault := by
  refine (Formula.evaluate_bears
    (Q := fun e => ∀ fault, e = .numeric fault →
      f.Strains ctx fault ∨ ∃ y, T y ∧ Strained ctx y fault)
    f ⟨fun _ _ => nofun, ?_, ?_, ?_⟩).outcome h
  · rintro g hg fault hSource _ ⟨⟩
    exact .inl ⟨g, hg, w, hSource⟩
  · exact fun _ _ => failsOnly_pure ()
  · exact fun z hz => failsOnly_lift fun e he fault hFault => .inr (hSettle z hz e he fault hFault)

theorem textValue_sourced (hc : T c) (hText : formulaOf (ctx.grid.get? c) = some text)
    (h : Recursion.textValue ctx (Recursion.settle ctx w) text = .error e)
    (hSettle : ∀ z, Refers ctx c z → ∀ e, Recursion.settle ctx w z = .error e →
      Sourced ctx T e) : Sourced ctx T e := by
  unfold Recursion.textValue at h
  cases hTree : Recursion.tree text with
  | error e' =>
    rw [hTree] at h
    cases h
    obtain ⟨fault, rfl⟩ := tree_error hTree
    exact sourced_formula _
  | ok f =>
    rw [hTree] at h
    intro fault hFault
    rcases value_sourced h (fun z hz => hSettle z ⟨text, f, hText, hTree, hz⟩) fault hFault with
      hStrains | hBelow
    · exact ⟨c, hc, text, f, hText, hTree, hStrains⟩
    · exact hBelow

/-- Without an address a cell cannot record anything; with one it records what it can. -/
theorem settle_escapes (hT : ∀ x y, T x → Refers ctx x y → T y) (hc : T c)
    (h : Recursion.settle ctx w c = .error e) : c.toAddress = .error e ∨ Escapes ctx T e := by
  -- on the room: the cells below are settled while one formula cell more waits
  induction hRoom : Recursion.room ctx w using Nat.strong_induction_on generalizing w c e with
  | _ room ih =>
    by_cases hw : c ∈ w
    · rw [Recursion.settle_of_mem hw] at h
      cases h
      exact .inr (escapes_circular _)
    cases hText : formulaOf (ctx.grid.get? c) with
    | none =>
      rw [Recursion.settle_literal hw hText] at h
      cases h
    | some text =>
      have hLess := Recursion.room_cons_lt hw hText
      have hBelow : ∀ z, Refers ctx c z → ∀ e, Recursion.settle ctx (c :: w) z = .error e →
          Sourced ctx T e := by
        intro z hz e he
        rcases ih _ (hRoom ▸ hLess) (hT c z hc hz) he rfl with hAddress | hEscapes
        · -- only the root may lack an address
          rw [hz.isAddressable.toAddress_eq] at hAddress
          cases hAddress
        · exact hEscapes.sourced
      rw [Recursion.settle_formula hw hText, Recursion.settledBy] at h
      split at h
      · cases h
      · cases h
        rcases settledCell_error ‹_› with ⟨hValue, hNot⟩ | hAddress
        · exact .inr ⟨hNot, textValue_sourced hc hText hValue hBelow⟩
        · exact .inl hAddress

/-! ## Requests -/

/-- Preparation fails with what a cell does not record, and gets nowhere too deep. -/
theorem Refused.escapes (h : Refused ctx c e) (hT : ∀ x y, T x → Refers ctx x y → T y)
    (hc : T c) : e ≠ .tooDeep ∧ (c.toAddress = .error e ∨ Escapes ctx T e) := by
  cases h with
  | @references text hText hError =>
    unfold textReferences at hError
    cases hTree : Recursion.tree text with
    | error e' =>
      rw [hTree] at hError
      cases hError
    | ok f =>
      rw [hTree] at hError
      obtain ⟨fault, rfl, hStrains⟩ := strains_of_references hError
      refine ⟨nofun, .inr ⟨nofun, ?_⟩⟩
      rintro _ ⟨⟩
      exact ⟨c, hc, text, f, hText, hTree, hStrains⟩
  | cell _ hSettle =>
    refine ⟨?_, settle_escapes hT hc hSettle⟩
    rintro rfl
    exact Recursion.settle_ne_tooDeep hSettle

/-- A failure of a cell that should have been caught: the cell has no address, or the formula of a
cell that it reaches ends in a numeric fault. -/
def Uncaught (ctx : EvaluationContext) (c : Coordinate) (e : Failure) : Prop :=
  c.toAddress = .error e ∨ ∃ fault y, e = .numeric fault ∧ Reaches ctx c y ∧ Strained ctx y fault

theorem Escapes.circular_or_numeric (h : Escapes ctx T e) (hDeep : e ≠ .tooDeep) :
    (∃ path, e = .formula (.circular path)) ∨
      ∃ fault y, e = .numeric fault ∧ T y ∧ Strained ctx y fault := by
  cases e with
  | tooDeep => exact absurd rfl hDeep
  | numeric fault =>
    obtain ⟨y, hy, hStrained⟩ := h.sourced fault rfl
    exact .inr ⟨fault, y, rfl, hy, hStrained⟩
  | formula fault =>
    cases fault with
    | circular path => exact .inl ⟨path, rfl⟩
    | _ => exact absurd ⟨_, rfl, rfl⟩ h.unrecorded

theorem isAddressable_of_reaches {z y : Coordinate} (hReach : Reaches ctx z y)
    (hz : z.IsAddressable) : y.IsAddressable := by
  cases hReach with
  | refl => exact hz
  | tail _ hLast => exact hLast.isAddressable

/-- What a cell below the root does not record is circular or not caught at the root. -/
theorem uncaught_of_reaches {y : Coordinate} (hReach : Reaches ctx c y) (hDeep : e ≠ .tooDeep)
    (h : y.toAddress = .error e ∨ Escapes ctx (Reaches ctx c) e) :
    (∃ path, e = .formula (.circular path)) ∨ Uncaught ctx c e := by
  rcases h with hAddress | hEscapes
  · cases hReach with
    | refl => exact .inr (.inl hAddress)
    | tail _ hLast =>
      -- a cell that a formula refers to was read from an address, so it has one
      rw [hLast.isAddressable.toAddress_eq] at hAddress
      cases hAddress
  · exact (hEscapes.circular_or_numeric hDeep).imp_right .inr

/-- After preparation a request fails as plain recursion does, or for want of depth; preparation
fails at a cell below a root. -/
theorem fails_of_prepared {α : Type} {x : Step α} {r : Except Failure α}
    {address : Except Failure (Option String)} {roots : List Coordinate} (hs : s.Faithful ctx)
    (hr : r ≠ .error .tooDeep)
    (hx : Follows (Session.Faithful ctx) (fun _ => False)
      (tooDeepIf (ctx.nestingLimit < Recursion.room ctx [])) r x)
    (h : (do prepareAll ctx roots; reportDepth address x) s = .error e t) :
    r = .error e ∨ e = depthFailure address ∨
      ∃ root ∈ roots, ∃ y, Reaches ctx root y ∧ Refused ctx y e := by
  cases hPrepare : prepareAll ctx roots s with
  | error e' u =>
    rw [bind_of_error hPrepare] at h
    cases h
    exact .inr (.inr (prepareAll_error hs hPrepare).2.2)
  | ok _ u =>
    rw [bind_of_ok hPrepare] at h
    obtain ⟨v, -, hRun | ⟨_, ⟨-, rfl⟩, hRun⟩⟩ :=
      hx (fun _ _ => not_false) u (prepareAll_ok hs hPrepare).1
    · rw [reportDepth_of_ended _ hRun hr] at h
      exact .inl (eq_of_ended_error h.symm).1
    · rw [reportDepth_of_tooDeep _ hRun] at h
      cases h
      exact .inr (.inl rfl)

theorem evaluateCell_fails (hs : s.Faithful ctx) (h : evaluateCell ctx c s = .error e t) :
    (∃ path, e = .formula (.circular path)) ∨ e = .formula (.nestedTooDeeply (some c.address)) ∨
      Uncaught ctx c e := by
  have hClosed : ∀ x y, Reaches ctx c x → Refers ctx x y → Reaches ctx c y :=
    fun _ _ hx hxy => hx.tail hxy
  rcases fails_of_prepared hs Recursion.settle_ne_tooDeep
    (resolve_follows ctx.nestingLimit Recursion.outlasts_nil) h with
    hSettle | hNested | ⟨root, hRoot, y, hReach, hRefused⟩
  · have hDeep : e ≠ .tooDeep := by
      rintro rfl
      exact Recursion.settle_ne_tooDeep hSettle
    exact (uncaught_of_reaches .refl hDeep (settle_escapes hClosed .refl hSettle)).imp_right .inr
  · rw [hNested]
    exact .inr ((depthFailure_cases c).imp_right .inl)
  · obtain rfl := List.mem_singleton.mp hRoot
    obtain ⟨hDeep, hEscapes⟩ := hRefused.escapes hClosed hReach
    exact (uncaught_of_reaches hReach hDeep hEscapes).imp_right .inr

/-- A formula fails with a fault of formulas, or with a numeric fault that comes from it or from a
cell that it reaches. -/
theorem evaluate_fails (hs : s.Faithful ctx) (h : evaluate ctx f s = .error e t) :
    (∃ fault, e = .formula fault) ∨ ∃ fault, e = .numeric fault ∧
      (f.Strains ctx fault ∨ ∃ y, (Request.value f).Touches ctx y ∧ Strained ctx y fault) := by
  have hClosed : ∀ x y, (Request.value f).Touches ctx x → Refers ctx x y →
      (Request.value f).Touches ctx y := fun _ _ hx hxy => hx.reaches (.single hxy)
  have hAsked : ∀ {z y e}, f.Asks ctx.rangeLimit z → Reaches ctx z y →
      y.toAddress = .error e ∨ Escapes ctx ((Request.value f).Touches ctx) e →
        Escapes ctx ((Request.value f).Touches ctx) e := by
    intro z y e hz hReach hOr
    refine hOr.resolve_left fun hAddress => ?_
    rw [(isAddressable_of_reaches hReach hz.isAddressable).toAddress_eq] at hAddress
    cases hAddress
  cases hReferences : f.references ctx.rangeLimit with
  | error e' =>
    rw [evaluate_of_references_error hReferences] at h
    cases h
    obtain ⟨fault, rfl, hStrains⟩ := strains_of_references hReferences
    exact .inr ⟨fault, rfl, .inl hStrains⟩
  | ok roots =>
    rw [evaluate_eq] at h
    simp only [hReferences, lift_ok, pure_bind] at h
    rcases fails_of_prepared hs (value_ne_tooDeep f) (evaluate_follows ctx.nestingLimit f) h with
      hValue | rfl | ⟨z, hz, y, hReach, hRefused⟩
    · have hSourced := value_sourced hValue fun z hz e he =>
        (hAsked hz .refl (settle_escapes hClosed (Request.touches_of_asks hz) he)).sourced
      cases e with
      | formula fault => exact .inl ⟨fault, rfl⟩
      | numeric fault => exact .inr ⟨fault, rfl, hSourced fault rfl⟩
      | tooDeep => exact absurd hValue (value_ne_tooDeep f)
    · exact .inl ⟨_, rfl⟩
    · rw [f.mem_references hReferences] at hz
      obtain ⟨hDeep, hEscapes⟩ := hRefused.escapes hClosed ⟨z, hz, hReach⟩
      rcases (hAsked hz hReach hEscapes).circular_or_numeric hDeep with
        ⟨path, rfl⟩ | ⟨fault, x, rfl, hx, hStrained⟩
      · exact .inl ⟨_, rfl⟩
      · exact .inr ⟨fault, rfl, .inr ⟨x, hx, hStrained⟩⟩

/-! ## Passes -/

theorem settledEntry_error {entry : Coordinate × Cell} {r : Except Failure (Option Cell)}
    (h : settledEntry entry r = .error e) :
    r = .error e ∧ ∀ fault, e = .formula fault → endsCellOnly fault = false := by
  cases r with
  | ok cell => cases h
  | error e' =>
    cases e' with
    | numeric fault =>
      cases h
      exact ⟨rfl, nofun⟩
    | tooDeep =>
      cases h
      exact ⟨rfl, nofun⟩
    | formula fault =>
      simp only [settledEntry] at h
      split at h
      · cases h
      · cases h
        refine ⟨rfl, ?_⟩
        rintro _ ⟨⟩
        exact Bool.eq_false_iff.mpr ‹_›

theorem evaluateEntry_fails {entry : Coordinate × Cell} (hs : s.Faithful ctx)
    (h : evaluateEntry ctx entry s = .error e t) : Uncaught ctx entry.1 e := by
  obtain ⟨hOutcome, hEnds⟩ := settledEntry_error (evaluateEntry_error h).1
  cases hRun : evaluateCell ctx entry.1 s with
  | ok cell u =>
    rw [outcome_of_ok hRun] at hOutcome
    cases hOutcome
  | error e' u =>
    rw [outcome_of_error hRun] at hOutcome
    cases hOutcome
    rcases evaluateCell_fails hs hRun with ⟨path, rfl⟩ | rfl | hUncaught
    · cases hEnds _ rfl
    · cases hEnds _ rfl
    · exact hUncaught

/-- A pass breaks off at an entry whose failure is not caught. -/
theorem evaluateEntries_fails {entries : List (Coordinate × Cell)} (hs : s.Faithful ctx)
    (h : evaluateEntries ctx entries s = .error e t) :
    ∃ entry ∈ entries, Uncaught ctx entry.1 e := by
  induction entries generalizing s with
  | nil => cases h
  | cons entry rest ih =>
    rcases evaluateEntries_cons_run (a := .error e) h with
      ⟨e', he, hFirst⟩ | ⟨x, u, b, hFirst, hRest, hb⟩
    · cases he
      exact ⟨entry, List.mem_cons_self, evaluateEntry_fails hs hFirst⟩
    · cases b with
      | ok others => cases hb
      | error e' =>
        cases hb
        obtain ⟨-, rfl⟩ := evaluateEntry_ok hFirst
        obtain ⟨other, hOther, hUncaught⟩ := ih (evaluateCell_final_faithful hs entry.1) hRest
        exact ⟨other, List.mem_cons_of_mem _ hOther, hUncaught⟩

/-! ## All requests -/

theorem evaluateText_fails (hs : s.Faithful ctx) (h : evaluateText ctx text s = .error e t) :
    (∃ fault, e = .formula fault) ∨ ∃ f fault, Recursion.tree text = .ok f ∧ e = .numeric fault ∧
      (f.Strains ctx fault ∨ ∃ y, (Request.value f).Touches ctx y ∧ Strained ctx y fault) := by
  unfold evaluateText at h
  rw [treeOf_none] at h
  cases hTree : Recursion.tree text with
  | error e' =>
    rw [hTree] at h
    cases h
    obtain ⟨fault, rfl⟩ := tree_error hTree
    exact .inl ⟨_, rfl⟩
  | ok f =>
    rw [hTree, lift_ok, pure_bind] at h
    exact (evaluate_fails hs h).imp_right fun ⟨fault, hFault⟩ => ⟨f, fault, rfl, hFault⟩

/-- A formula fails with a fault of formulas and a cell with a circular reference or nesting beyond
the limit, every other fault of its formula being recorded; a pass gives every coordinate an entry.
The exceptions are the numeric faults of nodes that are reached, and cells without an address. -/
theorem failures_recorded_or_uncaught (ctx : EvaluationContext) (before : List Request) :
    (∀ text e t, evaluateText ctx text (after ctx before) = .error e t →
      (∃ fault, e = .formula fault) ∨ ∃ f fault, Recursion.tree text = .ok f ∧
        e = .numeric fault ∧ (f.Strains ctx fault ∨
          ∃ y, (Request.value f).Touches ctx y ∧ Strained ctx y fault)) ∧
    (∀ c e t, evaluateCell ctx c (after ctx before) = .error e t →
      (∃ path, e = .formula (.circular path)) ∨
        e = .formula (.nestedTooDeeply (some c.address)) ∨ Uncaught ctx c e) ∧
    (∀ c text cell t, formulaOf (ctx.grid.get? c) = some text →
      evaluateCell ctx c (after ctx before) = .ok cell t →
        (∃ v, Recursion.textValue ctx (Recursion.settle ctx [c]) text = .ok v ∧
          cell = some { value := v, formula := some text }) ∨
        ∃ fault, Recursion.textValue ctx (Recursion.settle ctx [c]) text =
            .error (.formula fault) ∧
          cell = some { error := some fault.message, formula := some text }) ∧
    ((∃ results t, evaluateGrid ctx (after ctx before) = .ok results t ∧
        results.map (·.1) = ctx.grid.coordinates) ∨
      ∃ e t, evaluateGrid ctx (after ctx before) = .error e t ∧
        ∃ c ∈ ctx.grid.coordinates, Uncaught ctx c e) := by
  have hs := after_faithful ctx before
  refine ⟨fun text e t => evaluateText_fails hs, fun c e t => evaluateCell_fails hs, ?_, ?_⟩
  · intro c text cell t hText hRun
    have hSettle := (evaluateCell_ending hs c).eq_ok hRun
    rw [Recursion.settle_formula (by simp) hText, Recursion.settledBy] at hSettle
    split at hSettle <;> cases hSettle
    rcases settledCell_ok ‹_› with ⟨v, hv, rfl⟩ | ⟨fault, hFault, rfl⟩
    · exact .inl ⟨v, hv, rfl⟩
    · exact .inr ⟨fault, hFault, rfl⟩
  · cases hRun : evaluateGrid ctx (after ctx before) with
    | ok results t => exact .inl ⟨results, t, rfl, coordinates_of_evaluateGrid hs hRun⟩
    | error e t =>
      obtain ⟨entry, hEntry, hUncaught⟩ := evaluateEntries_fails hs hRun
      exact .inr ⟨e, t, rfl, entry.1, List.mem_map_of_mem hEntry, hUncaught⟩

/-- A sheet with a whole number, its quotient by one, and a formula that has nothing to do with
them. -/
def quotientSheet (n : Nat) : EvaluationContext where
  grid := ⟨[(⟨0, 0⟩, { value := .int n }), (⟨0, 1⟩, { formula := some "=A1/1" }),
    (⟨0, 2⟩, { formula := some "=2*3" })], by simp⟩

/-- The quotient ends the formula, its cell and the whole pass when it has no double. -/
theorem quotientSheet_fails {n : Nat} (h : Binary64.nearest false n 1 = none) :
    (evaluateText (quotientSheet n) "=A1/1").outcome {} =
        .error (.numeric .quotientBeyondFloat) ∧
      (evaluateCell (quotientSheet n) ⟨0, 1⟩).outcome {} =
        .error (.numeric .quotientBeyondFloat) ∧
      (evaluateGrid (quotientSheet n)).outcome {} = .error (.numeric .quotientBeyondFloat) := by
  -- both sides are computed up to the question whether the double exists
  refine ⟨?_, ?_, ?_⟩ <;>
  · cbv at h ⊢
    rw [h]
    rfl

/-- The fault of one quotient is neither a fault of the formula nor recorded in its cell, and the
pass has no entry for the cells around it either. -/
theorem quotient_is_uncaught :
    (evaluateText (quotientSheet (10 ^ 400)) "=A1/1").outcome {} =
        .error (.numeric .quotientBeyondFloat) ∧
      (evaluateCell (quotientSheet (10 ^ 400)) ⟨0, 1⟩).outcome {} =
        .error (.numeric .quotientBeyondFloat) ∧
      (evaluateGrid (quotientSheet (10 ^ 400))).outcome {} =
        .error (.numeric .quotientBeyondFloat) := by
  exact quotientSheet_fails (by decide +kernel)

end Resolver
end Spreadsheet
