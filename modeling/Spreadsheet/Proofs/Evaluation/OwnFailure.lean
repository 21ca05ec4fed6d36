import Spreadsheet.Proofs.Evaluation.Leads

/-!
# Where failures come from

A formula that fails has a failure of its own or passes on the failure of a cell that was asked for.
Failures of its own are never circular references, as long as the functions report none, and never
excessive depth. `evaluate_leads` carries a passage over from the cells to the formula; it is the
one induction over formulas behind what is known of their failures and of what they do to the state.
-/

set_option autoImplicit false

namespace Spreadsheet

/-- A function sees values and no cells, so a circular reference is not its to report. -/
def Registry.ReportsNoCycle (r : Registry) : Prop :=
  ∀ name f, r.byName? name = some f → ∀ arguments fault,
    f arguments = .error (.formula fault) → fault.isCircular = false

def Registry.Reports (r : Registry) (fault : FormulaFault) : Prop :=
  ∃ name f arguments, r.byName? name = some f ∧ f arguments = .error (.formula fault)

theorem Registry.ReportsNoCycle.not_reports {r : Registry} (h : r.ReportsNoCycle)
    (path : List Coordinate) : ¬ r.Reports (.circular path) := by
  rintro ⟨name, f, arguments, hFunction, hFault⟩
  cases h name f hFunction arguments _ hFault

namespace Evaluation

variable {State α β : Type} {Q : Failure → Prop}

def FailsOnly (Q : Failure → Prop) (x : Evaluation State α) : Prop :=
  ∀ s e s', x s = .error e s' → Q e

theorem failsOnly_pure (a : α) : FailsOnly Q (pure a : Evaluation State α) := by
  intro s e s' h
  cases h

theorem failsOnly_throw {e : Failure} (h : Q e) : FailsOnly Q (throw e : Evaluation State α) := by
  intro s e' s' h'
  cases h'
  exact h

theorem failsOnly_lift {r : Except Failure α} (h : ∀ e, r = .error e → Q e) :
    FailsOnly Q (lift r : Evaluation State α) := by
  cases r with
  | ok a => exact failsOnly_pure a
  | error e => exact failsOnly_throw (h e rfl)

/-- What only looks at the state or adds to it does not fail. -/
theorem failsOnly_of_steady {x : Evaluation State α} (h : ∀ s, ∃ a t, x s = .ok a t) :
    FailsOnly Q x := by
  intro s e t hRun
  obtain ⟨a, u, hOk⟩ := h s
  rw [hOk] at hRun
  cases hRun

theorem FailsOnly.outcome {x : Evaluation State α} (h : FailsOnly Q x) {s : State} {e : Failure}
    (he : x.outcome s = .error e) : Q e := by
  obtain ⟨t, hRun⟩ := exists_of_outcome_error he
  exact h s e t hRun

/-- The passage that only says which failures there are. -/
def failing (Q : Failure → Prop) : Passage State := fun _ o _ => ∀ e, o = some e → Q e

theorem failing_composes : Composes (failing Q : Passage State) where
  refl _ e he := by cases he
  trans _ h := h

theorem failsOnly_iff_leads {x : Evaluation State α} : FailsOnly Q x ↔ Leads (failing Q) x := by
  constructor
  · intro h s
    cases hRun : x s with
    | ok a t =>
      intro e he
      cases he
    | error e t =>
      intro e' he
      cases he
      exact h s e t hRun
  · intro h s e t hRun
    exact h.of_error hRun e rfl

end Evaluation

open Evaluation

namespace Formula

/-- The failures that a formula has without its cells and its functions. -/
inductive PlainFailure : Failure → Prop
  | numeric (fault : NumericFault) : PlainFailure (.numeric fault)
  | malformedAddress (address : String) : PlainFailure (.formula (.malformedAddress address))
  | rowZero (address : String) : PlainFailure (.formula (.rowZero address))
  | unknownFunction (function : String) (available : List String) :
      PlainFailure (.formula (.unknownFunction function available))
  | notNumeric (symbol : String) (operand : Value) :
      PlainFailure (.formula (.notNumeric symbol operand))
  | notNegatable (operand : Value) : PlainFailure (.formula (.notNegatable operand))
  | divisionByZero : PlainFailure (.formula .divisionByZero)
  | rangeTooLarge (range : String) (size limit : Int) :
      PlainFailure (.formula (.rangeTooLarge range size limit))

/-- The failures that a formula has apart from those of the cells that it asks for. -/
inductive OwnFailure (functions : Registry) : Failure → Prop
  | numeric (fault : NumericFault) : OwnFailure functions (.numeric fault)
  | malformedAddress (address : String) :
      OwnFailure functions (.formula (.malformedAddress address))
  | rowZero (address : String) : OwnFailure functions (.formula (.rowZero address))
  | functionFailed (function message : String) :
      OwnFailure functions (.formula (.functionFailed function message))
  | unknownFunction (function : String) (available : List String) :
      OwnFailure functions (.formula (.unknownFunction function available))
  | notNumeric (symbol : String) (operand : Value) :
      OwnFailure functions (.formula (.notNumeric symbol operand))
  | notNegatable (operand : Value) : OwnFailure functions (.formula (.notNegatable operand))
  | divisionByZero : OwnFailure functions (.formula .divisionByZero)
  | dependentCell (address cause : String) :
      OwnFailure functions (.formula (.dependentCell address cause))
  | rangeTooLarge (range : String) (size limit : Int) :
      OwnFailure functions (.formula (.rangeTooLarge range size limit))
  | reported {name : String} {f : Function} {arguments : List Value} {fault : FormulaFault}
      (hFunction : functions.byName? name = some f)
      (hFault : f arguments = .error (.formula fault)) : OwnFailure functions (.formula fault)

theorem PlainFailure.own {functions : Registry} {e : Failure} (h : PlainFailure e) :
    OwnFailure functions e := by
  cases h <;> constructor

theorem OwnFailure.ne_tooDeep {functions : Registry} {e : Failure} (h : OwnFailure functions e) :
    e ≠ .tooDeep := by
  rintro rfl
  cases h

theorem OwnFailure.not_circular {functions : Registry} (hFunctions : functions.ReportsNoCycle)
    {fault : FormulaFault} (h : OwnFailure functions (.formula fault)) :
    fault.isCircular = false := by
  cases h with
  | reported hFunction hFault => exact hFunctions _ _ hFunction _ _ hFault
  | _ => rfl

variable {State : Type} {R : Passage State} {env : Surroundings State}

/-- A passage of the failures of formulas, of the notes and of the cells in some surroundings. -/
structure Carries (R : Passage State) (asked : Coordinate → Prop) (env : Surroundings State) :
    Prop where
  composes : Composes R
  own : ∀ e, OwnFailure env.functions e → ∀ s, R s (some e) s
  noteCall : ∀ key arguments, Leads R (env.noteCall key arguments)
  settle : ∀ c, asked c → Leads R (env.settle c)

theorem Carries.mono {asked asked' : Coordinate → Prop} (h : Carries R asked env)
    (hle : ∀ c, asked' c → asked c) : Carries R asked' env :=
  { h with settle := fun c hc => h.settle c (hle c hc) }

theorem plainFailure_of_ofAddress {address : String} {e : Failure}
    (he : Coordinate.ofAddress address = .error e) : PlainFailure e := by
  unfold Coordinate.ofAddress at he
  split at he
  · cases he
    exact .malformedAddress address
  · split at he <;> cases he
    · exact .numeric _
    · exact .rowZero address

theorem plainFailure_of_corners {first last : String} {e : Failure}
    (he : corners first last = .error e) : PlainFailure e := by
  unfold Formula.corners at he
  cases hFirst : Coordinate.ofAddress first with
  | error e' =>
    rw [hFirst] at he
    cases he
    exact plainFailure_of_ofAddress hFirst
  | ok a =>
    cases hLast : Coordinate.ofAddress last with
    | error e' =>
      rw [hFirst, hLast] at he
      cases he
      exact plainFailure_of_ofAddress hLast
    | ok b =>
      rw [hFirst, hLast] at he
      cases he

theorem plainFailure_of_apply {operation : Number.Operation} {a b : Number} {e : Failure}
    (he : operation.apply a b = .error e) : PlainFailure e := by
  have hNumeric : ∀ r : Except NumericFault Number, r.mapError .numeric = .error e →
      PlainFailure e := by
    intro r hr
    cases r with
    | ok n => cases hr
    | error fault =>
      cases hr
      exact .numeric fault
  cases operation with
  | add => exact hNumeric _ he
  | subtract => exact hNumeric _ he
  | multiply => exact hNumeric _ he
  | divide =>
    simp only [Number.Operation.apply] at he
    split at he
    · cases he
      exact .divisionByZero
    · exact hNumeric _ he

variable {asked : Coordinate → Prop}

theorem Carries.valueOf (h : Carries R asked env) (address : String) (settled : Option Cell) :
    Leads R (valueOf address settled : Evaluation State Value) := by
  unfold Formula.valueOf
  split
  · exact leads_pure h.composes _
  · split
    · exact leads_throw (h.own _ (.dependentCell _ _))
    · exact leads_pure h.composes _

theorem Carries.members {cs : List Coordinate} (h : Carries R (· ∈ cs) env) :
    Leads R (members env cs) := by
  induction cs with
  | nil => exact leads_pure h.composes _
  | cons c cs ih =>
    have hRest := ih (h.mono fun d hd => List.mem_cons_of_mem c hd)
    rw [Formula.members]
    refine (h.settle c List.mem_cons_self).bind h.composes fun cell => ?_
    refine (h.valueOf c.address cell).bind h.composes fun v =>
      hRest.bind h.composes fun vs => ?_
    split <;> exact leads_pure h.composes _

theorem Carries.operand (h : Carries R asked env) {fault : Value → FormulaFault}
    (hFault : ∀ v, OwnFailure env.functions (.formula (fault v))) (v : Value) :
    Leads R (operand fault v : Evaluation State Number) := by
  unfold Formula.operand
  split
  · exact leads_pure h.composes _
  · split
    · exact leads_throw (h.own _ (hFault v))
    · exact leads_throw (h.own _ (.numeric _))

theorem Carries.callFunction (h : Carries R asked env) (function : String) {f : Function}
    (hFunction : env.functions.byName? function = some f) (vs : List Value) :
    Leads R (callFunction function f vs : Evaluation State Value) := by
  unfold Formula.callFunction
  split
  · exact leads_pure h.composes _
  · rename_i hFault
    exact leads_throw (h.own _ (.reported hFunction hFault))
  · exact leads_throw (h.own _ (.functionFailed _ _))

mutual

/-- A passage of the cells that a formula asks for and of its own failures is one of the formula. -/
theorem evaluate_leads (f : Formula) (h : Carries R (f.Asks env.rangeLimit) env) :
    Leads R (f.evaluate env) := by
  cases f with
  | text quoted => exact leads_pure h.composes _
  | number digits =>
    rw [evaluate]
    refine Leads.bind h.composes ?_ fun n => leads_pure h.composes _
    cases Number.ofDigits digits with
    | ok n => exact leads_pure h.composes _
    | error fault => exact leads_throw (h.own _ (.numeric fault))
  | cell address =>
    rw [evaluate]
    cases hAddress : Coordinate.ofAddress address with
    | error e => exact leads_throw (h.own e (plainFailure_of_ofAddress hAddress).own)
    | ok c =>
      simp only [lift_ok, pure_bind]
      exact (h.settle c ((asks_cell address).mpr hAddress)).bind h.composes
        fun cell => h.valueOf _ cell
  | range first last =>
    rw [evaluate]
    cases hCorners : corners first last with
    | error e => exact leads_throw (h.own e (plainFailure_of_corners hCorners).own)
    | ok ends =>
      obtain ⟨a, b⟩ := ends
      simp only [lift_ok, pure_bind]
      cases hLimit : exceeds env.rangeLimit a b with
      | true =>
        simp only [if_true]
        split
        · exact leads_throw (h.own _ (.rangeTooLarge _ _ _))
        · exact leads_throw (h.own _ (.numeric _))
      | false =>
        simp only [Bool.false_eq_true, if_false]
        refine (Carries.members (h.mono fun c hc => ?_)).bind h.composes
          fun vs => leads_pure h.composes _
        exact (asks_range first last).mpr ⟨a, b, hCorners, hLimit, hc⟩
  | negative f =>
    rw [evaluate]
    refine (evaluate_leads f (h.mono fun c hc => (asks_negative f).mpr hc)).bind h.composes
      fun v => ?_
    exact (h.operand (fun v => .notNegatable v) v).bind h.composes
      fun n => leads_pure h.composes _
  | call function arguments =>
    rw [evaluate]
    cases hFunction : env.functions.byName? function with
    | none => exact leads_throw (h.own _ (.unknownFunction _ _))
    | some g =>
      refine (evaluateAll_leads arguments
        (h.mono fun c hc => (asks_call function arguments).mpr hc)).bind h.composes fun vs => ?_
      exact (h.noteCall _ vs).bind h.composes fun _ => h.callFunction function hFunction vs
  | binary operation left right =>
    rw [evaluate]
    refine (evaluate_leads left
      (h.mono fun c hc => (asks_binary operation left right).mpr (.inl hc))).bind h.composes
        fun v => ?_
    refine (h.operand (fun v => .notNumeric _ v) v).bind h.composes fun a => ?_
    refine (evaluate_leads right
      (h.mono fun c hc => (asks_binary operation left right).mpr (.inr hc))).bind h.composes
        fun w => ?_
    refine (h.operand (fun v => .notNumeric _ v) w).bind h.composes fun b => ?_
    refine Leads.bind h.composes (leads_lift h.composes fun e he => ?_)
      fun n => leads_pure h.composes _
    exact h.own e (plainFailure_of_apply he).own

theorem evaluateAll_leads (fs : List Formula) (h : Carries R (AsksAny env.rangeLimit fs) env) :
    Leads R (evaluateAll env fs) := by
  cases fs with
  | nil => exact leads_pure h.composes _
  | cons f fs =>
    rw [evaluateAll]
    refine (evaluate_leads f (h.mono fun c hc => (asksAny_cons f fs).mpr (.inl hc))).bind
      h.composes fun v => ?_
    refine (evaluateAll_leads fs (h.mono fun c hc => (asksAny_cons f fs).mpr (.inr hc))).bind
      h.composes fun vs => ?_
    exact leads_pure h.composes _

end

variable {Q : Failure → Prop}

/-- A property that every failure of formulas, cells and notes in some surroundings has. -/
structure Covers (Q : Failure → Prop) (asked : Coordinate → Prop) (env : Surroundings State) :
    Prop where
  own : ∀ e, OwnFailure env.functions e → Q e
  noteCall : ∀ key arguments, FailsOnly Q (env.noteCall key arguments)
  settle : ∀ c, asked c → FailsOnly Q (env.settle c)

theorem Covers.carries (h : Covers Q asked env) : Carries (failing Q) asked env where
  composes := failing_composes
  own e he _ e' he' := by
    cases he'
    exact h.own e he
  noteCall key arguments := failsOnly_iff_leads.mp (h.noteCall key arguments)
  settle c hc := failsOnly_iff_leads.mp (h.settle c hc)

/-- What holds of the failures of the cells and of a formula's own failures holds of all failures of
its evaluation. -/
theorem evaluate_failsOnly (f : Formula) (h : Covers Q (f.Asks env.rangeLimit) env) :
    FailsOnly Q (f.evaluate env) :=
  failsOnly_iff_leads.mpr (evaluate_leads f h.carries)

end Formula
end Spreadsheet
