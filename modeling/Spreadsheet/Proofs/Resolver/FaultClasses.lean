import Spreadsheet.Proofs.Resolver.FirstFailure
import Spreadsheet.Proofs.Resolver.Watched

/-!
# Fault classes stay apart

A cell keeps the faults of its formula to itself, so the syntax fault of one text is never the fault
of another request: below a formula it is the error of a cell, and a formula that asks for that cell
fails. Circular references go the other way. A cell never keeps one, and the request ends in it.
-/

set_option autoImplicit false

namespace Spreadsheet

open Evaluation

namespace Resolver

variable {ctx : EvaluationContext} {s t : Session} {w roots : List Coordinate} {c z : Coordinate}
  {text : String} {d : Nat} {e : Failure} {f : Formula}

/-! ## Syntax faults -/

theorem RequestFailure.not_parsing {p : SyntaxFault}
    (hFunctions : ¬ ctx.functions.Reports (.parsing p)) :
    ¬ RequestFailure ctx (.formula (.parsing p)) := by
  rintro (hCell | hOwn)
  · cases hCell
  · cases hOwn with
    | reported hFunction hFault => exact hFunctions ⟨_, _, _, hFunction, hFault⟩

/-- The text of a formula brings up a syntax fault exactly when it has it. -/
theorem evaluateText_parsing {p : SyntaxFault} (hFunctions : ¬ ctx.functions.Reports (.parsing p))
    (text : String) (s : Session) :
    (evaluateText ctx text).outcome s = .error (.formula (.parsing p)) ↔
      Formula.parse text = .error p := by
  rw [evaluateText, treeOf]
  cases hParse : Formula.parse text with
  | ok f =>
    simp only [pure_bind]
    constructor
    · intro h
      cases RequestFailure.not_parsing hFunctions ((evaluate_requestFailure f).outcome h)
    · rintro ⟨⟩
  | error fault =>
    constructor
    · rintro ⟨⟩
      rfl
    · rintro ⟨⟩
      rfl

/-! ## Cells whose text cannot be read -/

/-- A cell with an address records what may be recorded. -/
theorem settledCell_fault {fault : FormulaFault} (hc : c.IsAddressable)
    (hCircular : fault.isCircular = false) :
    settledCell c text (.error (.formula fault)) =
      .ok { error := some fault.message, formula := some text } := by
  simp only [settledCell, hCircular, hc.toAddress_eq, Bool.false_eq_true, if_false]

/-- What a cell settles to whose text has a syntax fault. -/
def misspelledCell (text : String) (p : SyntaxFault) : Cell :=
  { error := some p.message, formula := some text }

/-- The text of a formula cell with an address has a syntax fault. -/
structure IsMisspelled (ctx : EvaluationContext) (c : Coordinate) (text : String)
    (p : SyntaxFault) : Prop where
  formula : formulaOf (ctx.grid.get? c) = some text
  parse : Formula.parse text = .error p
  address : c.IsAddressable

section Misspelled

variable {p : SyntaxFault}

theorem IsMisspelled.tree_eq (h : IsMisspelled ctx c text p) :
    Recursion.tree text = .error (.formula (.parsing p)) := by rw [Recursion.tree, h.parse]

theorem IsMisspelled.not_refers (h : IsMisspelled ctx c text p) : ¬ Refers ctx c z := by
  rintro ⟨text', f, hText, hTree, -⟩
  rw [h.formula] at hText
  cases hText
  rw [h.tree_eq] at hTree
  cases hTree

theorem IsMisspelled.eq_of_reaches (h : IsMisspelled ctx c text p) (hReach : Reaches ctx c z) :
    c = z := hReach.eq_of_not_refers fun _ => h.not_refers

theorem IsMisspelled.not_reachesCycle (h : IsMisspelled ctx c text p) : ¬ ReachesCycle ctx c :=
  not_reachesCycle_of_refers fun _ hFirst => absurd hFirst h.not_refers

theorem IsMisspelled.settleWithin_eq (h : IsMisspelled ctx c text p) (hc : c ∉ w) :
    Recursion.settleWithin ctx (d + 1) w c = .ok (some (misspelledCell text p)) := by
  have hCell : settledCell c text (.error (.formula (.parsing p))) = .ok (misspelledCell text p) :=
    settledCell_fault h.address rfl
  rw [Recursion.settleWithin_succ d hc h.formula, Recursion.textValue, h.tree_eq,
    Recursion.settledBy, hCell]

theorem IsMisspelled.settle_eq (h : IsMisspelled ctx c text p) :
    Recursion.settle ctx [] c = .ok (some (misspelledCell text p)) :=
  Recursion.settle_of_settleWithin (h.settleWithin_eq (d := 0) List.not_mem_nil) nofun

theorem IsMisspelled.not_refused (h : IsMisspelled ctx c text p) : ¬ Refused ctx c e := by
  intro hRefused
  cases hRefused with
  | references hText hReferences =>
    rw [h.formula] at hText
    cases hText
    rw [textReferences, h.tree_eq] at hReferences
    cases hReferences
  | cell _ hSettle =>
    rw [h.settle_eq] at hSettle
    cases hSettle

/-- The syntax fault becomes the error of the cell, wherever in a session the cell is asked for. -/
theorem IsMisspelled.evaluateCell_eq (h : IsMisspelled ctx c text p) (hs : s.Faithful ctx)
    (hDepth : ctx.memoize = true ∨ 0 < ctx.nestingLimit) :
    (evaluateCell ctx c).outcome s = .ok (some (misspelledCell text p)) := by
  cases hMemoize : ctx.memoize with
  | false =>
    have hPositive : 0 < depthOf ctx := by simpa [hMemoize, depthOf_off] using hDepth
    obtain ⟨d, hd⟩ : ∃ d, depthOf ctx = d + 1 := ⟨depthOf ctx - 1, by omega⟩
    have hSettle : Recursion.settleWithin ctx (depthOf ctx) [] c =
        .ok (some (misspelledCell text p)) := by
      rw [hd]
      exact h.settleWithin_eq List.not_mem_nil
    obtain ⟨t, hRun⟩ := (evaluateCell_off hMemoize hs).mpr hSettle
    exact outcome_of_ok hRun
  | true =>
    rw [evaluateCell_of_prepared hMemoize hs ?_ h.not_reachesCycle, h.settle_eq]
    intro y e hReach
    cases h.eq_of_reaches hReach
    exact h.not_refused

/-- A formula that is only the address of the cell passes the error on under that address. -/
theorem evaluate_cell_of_error {address cause : String} {cell : Cell}
    (hAddress : Coordinate.ofAddress address = .ok c) (hCause : cell.error = some cause)
    (hCell : (evaluateCell ctx c).outcome s = .ok (some cell)) :
    (evaluate ctx (.cell address)).outcome s =
      .error (.formula (.dependentCell (Text.upper address) cause)) := by
  have hReferences : (Formula.cell address).references ctx.rangeLimit = .ok [c] := by
    rw [Formula.references, hAddress]
    rfl
  obtain ⟨t, hRun⟩ := exists_of_outcome_ok hCell
  rw [evaluateCell_eq] at hRun
  rw [evaluate_eq, hReferences, lift_ok, pure_bind, Formula.evaluate, hAddress, lift_ok, pure_bind]
  cases hPrepare : prepareAll ctx [c] s with
  | error e u =>
    rw [bind_of_error hPrepare] at hRun
    cases hRun
  | ok _ u =>
    rw [bind_of_ok hPrepare, reportDepth_eq_ok] at hRun
    have hValue : (resolveCell ctx c >>= Formula.valueOf (Text.upper address)) u =
        .error (.formula (.dependentCell (Text.upper address) cause)) t := by
      rw [bind_of_ok hRun, Formula.valueOf, hCause]
      rfl
    have hReported := reportDepth_of_ended (r := .error _) (.ok none) hValue (by simp)
    exact outcome_of_error ((bind_of_ok hPrepare).trans hReported)

/-- A formula that asks for the cell has no value. -/
theorem IsMisspelled.evaluate_ne_ok (h : IsMisspelled ctx c text p) (hs : s.Faithful ctx)
    (hAsks : f.Asks ctx.rangeLimit c) (v : Value) : (evaluate ctx f).outcome s ≠ .ok v := by
  intro hOutcome
  obtain ⟨t, hRun⟩ := exists_of_outcome_ok hOutcome
  obtain ⟨-, -, g, -, hTree, -⟩ :=
    (Recursion.cleanWithin_of_value (value_of_evaluate hs hRun) hAsks).exists_value h.formula
  rw [h.tree_eq] at hTree
  cases hTree

/-- Where the cell is the first reference that fails, it is the one whose error is passed on. -/
theorem IsMisspelled.blamed (h : IsMisspelled ctx c text p) (hs : s.Faithful ctx)
    (hDepth : ctx.memoize = true ∨ 0 < ctx.nestingLimit)
    (hFunctions : ctx.functions.ReportsNoCell) {done rest : List Coordinate}
    (hReferences : f.references ctx.rangeLimit = .ok (done ++ c :: rest))
    (hDone : ∀ z ∈ done, SettlesClean ctx z) {address cause : String}
    (hOutcome : (evaluate ctx f).outcome s = .error (.formula (.dependentCell address cause))) :
    Coordinate.ofAddress address = .ok c ∧ cause = p.message := by
  obtain ⟨t, hRun⟩ := exists_of_outcome_error hOutcome
  obtain ⟨done', z, rest', hLists, hAddress, hFails, hDone'⟩ :=
    exists_first_failing hFunctions hs hReferences hRun
  -- the cell is not clean either, so both accounts name the first such reference
  have hCell := h.evaluateCell_eq (after_faithful ctx []) hDepth
  have hUnclean : ¬ SettlesClean ctx c := by
    intro hClean
    obtain ⟨cell, hSame, hNone⟩ := hClean []
    rw [hCell] at hSame
    cases hNone _ (Except.ok.inj hSame).symm
  obtain rfl := eq_of_first_unclean hLists hDone hDone' hUnclean hFails.not_settlesClean
  obtain ⟨cell, hCause, -, hOnly⟩ := hFails
  obtain rfl : misspelledCell text p = cell := Option.some.inj (hOnly [] _ hCell)
  exact ⟨hAddress, (Option.some.inj hCause).symm⟩

end Misspelled

/-- By plain recursion too a formula has a syntax fault exactly when its text has it. -/
theorem textValue_parsing {p : SyntaxFault} (hFunctions : ¬ ctx.functions.Reports (.parsing p))
    (w : List Coordinate) (text : String) :
    Recursion.textValue ctx (Recursion.settle ctx w) text = .error (.formula (.parsing p)) ↔
      Formula.parse text = .error p := by
  unfold Recursion.textValue
  constructor
  · intro h
    cases hParse : Formula.parse text with
    | error fault =>
      rw [Recursion.tree, hParse] at h
      cases h
      rfl
    | ok f =>
      rw [Recursion.tree_eq_ok.mpr hParse] at h
      have hCovers : Formula.Covers (RequestFailure ctx) (f.Asks ctx.rangeLimit)
          (Recursion.surroundings ctx (Recursion.settle ctx w)) :=
        { own := fun _ => .inr
          noteCall := fun _ _ => failsOnly_pure ()
          settle := fun z hz => failsOnly_lift fun e he => .inl <| cellFailure_of_not_recordable
            (Recursion.settleWithin_error_of_isAddressable hz.isAddressable he) }
      cases RequestFailure.not_parsing hFunctions ((f.evaluate_failsOnly hCovers).outcome h)
  · intro hParse
    rw [Recursion.tree, hParse]

/-! ## Circular references -/

/-- Under watch a request runs as it does by itself. Whatever circular reference is met on the way,
the request ends in that very one, and none of the cells that waited then is settled at the end. -/
def EndsInAlarm {α : Type} (x : Step α) (y : Watched.Step α) (s : Session) : Prop :=
  ∃ r t alarms, x s = ended r t ∧ y (s, []) = ended r (t, alarms) ∧
    (∀ a ∈ alarms, r = .error (.formula (.circular a.path)) ∧ ∀ z ∈ a.waiting, z ∉ t.settled) ∧
    ∀ path, r = .error (.formula (.circular path)) → ∃ a ∈ alarms, a.path = path

theorem endsInAlarm_of_watches {α : Type} {x : Step α} {y : Watched.Step α}
    (h : Watches (fun _ => True) KeepsNone x y) (s : Session) : EndsInAlarm x y s := by
  obtain ⟨r, t, alarms, hx, hy, -, hAccounts⟩ := h s [] trivial
  rw [List.append_nil] at hy
  refine ⟨r, t, alarms, hx, hy, ?_⟩
  cases hAccounts with
  | silent h => exact ⟨nofun, fun path hPath => absurd hPath (h path)⟩
  | alarm a ha =>
    refine ⟨fun b hb => ?_, fun path hPath => ?_⟩
    · obtain rfl := List.mem_singleton.mp hb
      exact ⟨rfl, ha⟩
    · cases hPath
      exact ⟨a, List.mem_singleton.mpr rfl, rfl⟩

/-! ## Both together -/

/-- The classes of faults stay apart in a session. A text brings up a syntax fault exactly when it
has it, and no other request does. A formula cell settles to what its own text comes to. One with a
syntax fault keeps it as its error, and the formula that is its address passes that error on. No
formula that asks for it has a value, and one that comes to it first passes no other error on. A
circular reference ends the request that meets it. -/
structure KeepsFaultsApart (ctx : EvaluationContext) (s : Session) : Prop where
  ofText : ∀ text p, (evaluateText ctx text).outcome s = .error (.formula (.parsing p)) ↔
    Formula.parse text = .error p
  ofRequest : ∀ (r : Request) p, (r.run ctx).outcome s ≠ .error (.formula (.parsing p))
  ofCell : ∀ c text cell, formulaOf (ctx.grid.get? c) = some text →
    (evaluateCell ctx c).outcome s = .ok cell →
      ∃ r, Recursion.textValue ctx (Recursion.settle ctx [c]) text = r ∧
        Recursion.settledBy c text r = .ok cell ∧
        ∀ p, r = .error (.formula (.parsing p)) ↔ Formula.parse text = .error p
  kept : ∀ c text p, IsMisspelled ctx c text p → ctx.memoize = true ∨ 0 < ctx.nestingLimit →
    (evaluateCell ctx c).outcome s = .ok (some (misspelledCell text p))
  passedOn : ∀ c text p, IsMisspelled ctx c text p → ctx.memoize = true ∨ 0 < ctx.nestingLimit →
    ∀ address, Coordinate.ofAddress address = .ok c →
      (evaluate ctx (.cell address)).outcome s =
        .error (.formula (.dependentCell (Text.upper address) p.message))
  barsValue : ∀ c text p, IsMisspelled ctx c text p → ∀ f : Formula, f.Asks ctx.rangeLimit c →
    ∀ v, (evaluate ctx f).outcome s ≠ .ok v
  blamed : ctx.functions.ReportsNoCell → ∀ c text p, IsMisspelled ctx c text p →
    ctx.memoize = true ∨ 0 < ctx.nestingLimit → ∀ (f : Formula) done rest,
      f.references ctx.rangeLimit = .ok (done ++ c :: rest) → (∀ z ∈ done, SettlesClean ctx z) →
        ∀ address cause,
          (evaluate ctx f).outcome s = .error (.formula (.dependentCell address cause)) →
            Coordinate.ofAddress address = .ok c ∧ cause = p.message
  circularCell : ∀ c, EndsInAlarm (evaluateCell ctx c) (watched.evaluateCell ctx c) s
  circularFormula : ∀ f, EndsInAlarm (evaluate ctx f) (watched.evaluate ctx f) s

theorem keepsFaultsApart (hParsing : ∀ p, ¬ ctx.functions.Reports (.parsing p))
    (hCircular : ctx.functions.ReportsNoCycle) (before : List Request) :
    KeepsFaultsApart ctx (after ctx before) where
  ofText text p := evaluateText_parsing (hParsing p) text _
  ofRequest r p h := RequestFailure.not_parsing (hParsing p) ((run_requestFailure r).outcome h)
  ofCell c text cell hText hOutcome := by
    obtain ⟨t, hRun⟩ := exists_of_outcome_ok hOutcome
    refine ⟨_, rfl, ?_, fun p => textValue_parsing (hParsing p) [c] text⟩
    rw [← Recursion.settle_formula List.not_mem_nil hText]
    exact (evaluateCell_ending (after_faithful ctx before) c).eq_ok hRun
  kept c text p h hDepth := h.evaluateCell_eq (after_faithful ctx before) hDepth
  passedOn c text p h hDepth address hAddress :=
    evaluate_cell_of_error hAddress rfl (h.evaluateCell_eq (after_faithful ctx before) hDepth)
  barsValue c text p h f hAsks v := h.evaluate_ne_ok (after_faithful ctx before) hAsks v
  blamed hFunctions c text p h hDepth f done rest hReferences hDone address cause hOutcome :=
    h.blamed (after_faithful ctx before) hDepth hFunctions hReferences hDone hOutcome
  circularCell c := endsInAlarm_of_watches (evaluateCell_watches hCircular c) _
  circularFormula f := endsInAlarm_of_watches (evaluate_watches hCircular f) _

/-- A sheet with a syntax fault, a cell above it, and a cell that refers to itself. -/
def misspelledSheet : EvaluationContext where
  grid := ⟨[(⟨0, 0⟩, { formula := some "=(" }), (⟨0, 1⟩, { formula := some "=A1" }),
    (⟨0, 2⟩, { formula := some "=C1" })], by decide⟩
  functions := Builtin.registry

/-- After the cell above it was asked for, the syntax fault is passed on as an error, and the cell
that refers to itself ends in its alarm. -/
theorem keepsFaultsApart_misspelledSheet :
    (∀ p, ¬ misspelledSheet.functions.Reports (.parsing p)) ∧
      misspelledSheet.functions.ReportsNoCycle ∧
      KeepsFaultsApart misspelledSheet (after misspelledSheet [.cell ⟨0, 1⟩]) ∧
      (evaluate misspelledSheet (.cell "a1")).outcome (after misspelledSheet [.cell ⟨0, 1⟩]) =
        .error (.formula (.dependentCell (Text.upper "a1") (SyntaxFault.unexpectedEnd 1).message)) ∧
      (evaluateCell misspelledSheet ⟨0, 2⟩).outcome (after misspelledSheet []) =
        .error (.formula (.circular [⟨0, 2⟩, ⟨0, 2⟩])) := by
  have hParsing : ∀ p, ¬ misspelledSheet.functions.Reports (.parsing p) := by
    rintro p ⟨name, f, arguments, hFunction, hFault⟩
    obtain ⟨_, _, hName, -⟩ := Builtin.functionFailed_of_registry hFunction hFault
    cases hName
  have hApart := keepsFaultsApart hParsing Builtin.registry_reportsNoCycle [.cell ⟨0, 1⟩]
  have hAddress : Coordinate.ofAddress "a1" = .ok ⟨0, 0⟩ := by cbv
  have hMisspelled : IsMisspelled misspelledSheet ⟨0, 0⟩ "=(" (.unexpectedEnd 1) :=
    ⟨rfl, by cbv, Coordinate.isAddressable_of_ofAddress hAddress⟩
  have hCircular : (evaluateCell misspelledSheet ⟨0, 2⟩).outcome (after misspelledSheet []) =
      .error (.formula (.circular [⟨0, 2⟩, ⟨0, 2⟩])) := by cbv
  exact ⟨hParsing, Builtin.registry_reportsNoCycle, hApart,
    hApart.passedOn _ _ _ hMisspelled (.inl rfl) "a1" hAddress, hCircular⟩

end Resolver
end Spreadsheet
