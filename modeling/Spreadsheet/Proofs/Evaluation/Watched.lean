import Spreadsheet.Proofs.Evaluation.OwnFailure

/-!
# Evaluations under watch

The same evaluation is run with a record beside its state on which every circular reference is put
where it is met. `Watches` relates the two runs: they end alike, and the record tells how. Either
nothing was met and the evaluation does not end in a circular reference, or one was met and the
evaluation ends in that very one. Formulas carry this over from the cells that they ask for.
-/

set_option autoImplicit false

namespace Spreadsheet

/-- A circular reference that was met: its path, and the cells that waited at that moment. -/
structure Alarm where
  path : List Coordinate
  waiting : List Coordinate

namespace Evaluation

variable {State α β : Type}

/-- The same computation beside a record of alarms that it leaves alone. -/
def quietly (x : Evaluation State α) : Evaluation (State × List Alarm) α := fun (s, alarms) =>
  match x s with
  | .ok a t => .ok a (t, alarms)
  | .error e t => .error e (t, alarms)

theorem quietly_of_ended {x : Evaluation State α} {s t : State} {r : Except Failure α}
    (h : x s = ended r t) (alarms : List Alarm) :
    quietly x (s, alarms) = ended r (t, alarms) := by
  simp only [quietly, h]
  cases r <;> rfl

/-- What was put on record by a computation that ended so: nothing, unless it ended in a circular
reference, and then that one alone. -/
inductive Accounts (A : Alarm → State → Prop) : Except Failure α → List Alarm → State → Prop
  | silent {r : Except Failure α} {t : State}
      (h : ∀ path, r ≠ .error (.formula (.circular path))) : Accounts A r [] t
  | alarm (a : Alarm) {t : State} (h : A a t) :
      Accounts A (.error (.formula (.circular a.path))) [a] t

/-- The second computation runs as the first from every state of which `I` holds, and it puts the
circular reference on record that the first ends in; `A` tells what is known then. -/
def Watches (I : State → Prop) (A : Alarm → State → Prop) (x : Evaluation State α)
    (y : Evaluation (State × List Alarm) α) : Prop :=
  ∀ s before, I s → ∃ r t alarms, x s = ended r t ∧ y (s, before) = ended r (t, alarms ++ before) ∧
    I t ∧ Accounts A r alarms t

variable {I : State → Prop} {A : Alarm → State → Prop} {x : Evaluation State α}
  {y : Evaluation (State × List Alarm) α} {k : α → Evaluation State β}
  {l : α → Evaluation (State × List Alarm) β} {alarms : List Alarm} {t : State} {e : Failure}

theorem accounts_ok (a : α) (t : State) : Accounts A (.ok a) [] t :=
  .silent fun _ h => by cases h

theorem Accounts.alarms_of_ok {a : α} (h : Accounts A (.ok a) alarms t) : alarms = [] := by
  cases h
  rfl

theorem Accounts.of_error (h : Accounts A (.error e : Except Failure α) alarms t) :
    Accounts A (.error e : Except Failure β) alarms t := by
  cases h with
  | silent h => exact .silent fun path hPath => h path (by cases hPath; rfl)
  | alarm a h => exact .alarm a h

theorem watches_pure (a : α) :
    Watches I A (pure a : Evaluation State α) (pure a : Evaluation (State × List Alarm) α) :=
  fun s _ hs => ⟨.ok a, s, [], rfl, rfl, hs, accounts_ok a s⟩

theorem watches_throw (h : ∀ path, e ≠ .formula (.circular path)) :
    Watches I A (throw e : Evaluation State α) (throw e : Evaluation (State × List Alarm) α) :=
  fun s _ hs => ⟨.error e, s, [], rfl, rfl, hs, .silent fun path hPath =>
    h path (Except.error.inj hPath)⟩

theorem Watches.bind (h : Watches I A x y) (hk : ∀ a, Watches I A (k a) (l a)) :
    Watches I A (x >>= k) (y >>= l) := by
  intro s before hs
  obtain ⟨r, t, alarms, hx, hy, ht, hAccounts⟩ := h s before hs
  cases r with
  | error e =>
    exact ⟨.error e, t, alarms, bind_of_error hx, bind_of_error hy, ht, hAccounts.of_error⟩
  | ok a =>
    obtain rfl := hAccounts.alarms_of_ok
    obtain ⟨r, u, alarms, hk', hl, hu, hAccounts⟩ := hk a t before ht
    refine ⟨r, u, alarms, ?_, ?_, hu, hAccounts⟩
    · rw [bind_of_ok hx, hk']
    · rw [bind_of_ok hy]
      exact hl

theorem watches_lift {r : Except Failure α}
    (h : ∀ path, r ≠ .error (.formula (.circular path))) :
    Watches I A (lift r : Evaluation State α) (lift r) := by
  cases r with
  | ok a => exact watches_pure a
  | error e => exact watches_throw fun path hPath => h path (by rw [hPath])

theorem Watches.foldlM {γ : Type} {step : α → γ → Evaluation State α}
    {step' : α → γ → Evaluation (State × List Alarm) α} {cs : List γ}
    (h : ∀ c ∈ cs, ∀ a, Watches I A (step a c) (step' a c)) (a : α) :
    Watches I A (cs.foldlM step a) (cs.foldlM step' a) := by
  induction cs generalizing a with
  | nil => exact watches_pure a
  | cons c cs ih =>
    rw [List.foldlM_cons, List.foldlM_cons]
    exact (h c List.mem_cons_self a).bind fun b =>
      ih (fun d hd => h d (List.mem_cons_of_mem c hd)) b

/-- What meets no circular reference may be done quietly. -/
theorem watches_quietly (hI : ∀ s r t, x s = ended r t → I s → I t)
    (hFails : FailsOnly (fun e => ∀ path, e ≠ .formula (.circular path)) x) :
    Watches I A x (quietly x) := by
  intro s before hs
  obtain ⟨r, t, hRun⟩ := exists_ended x s
  refine ⟨r, t, [], hRun, quietly_of_ended hRun before, hI s r t hRun hs, .silent ?_⟩
  rintro path rfl
  exact hFails s _ t hRun path rfl

theorem Watches.mono {A' : Alarm → State → Prop} (h : Watches I A x y)
    (hle : ∀ a t, A a t → A' a t) : Watches I A' x y := by
  intro s before hs
  obtain ⟨r, t, alarms, hx, hy, ht, hAccounts⟩ := h s before hs
  refine ⟨r, t, alarms, hx, hy, ht, ?_⟩
  cases hAccounts with
  | silent h => exact .silent h
  | alarm a h => exact .alarm a (hle a t h)

end Evaluation

open Evaluation

namespace Formula

variable {State : Type} {I : State → Prop} {A : Alarm → State → Prop} {env : Surroundings State}
  {env' : Surroundings (State × List Alarm)} {asked : Coordinate → Prop}

theorem OwnFailure.ne_circular {functions : Registry} {e : Failure}
    (hFunctions : functions.ReportsNoCycle) (h : OwnFailure functions e) (path : List Coordinate) :
    e ≠ .formula (.circular path) := by
  rintro rfl
  cases h.not_circular hFunctions

/-- Surroundings that settle the same cells and note the same calls under watch. -/
structure UnderWatch (I : State → Prop) (A : Alarm → State → Prop) (asked : Coordinate → Prop)
    (env : Surroundings State) (env' : Surroundings (State × List Alarm)) : Prop where
  rangeLimit : env'.rangeLimit = env.rangeLimit
  functions : env'.functions = env.functions
  reportsNoCycle : env.functions.ReportsNoCycle
  noteCall : ∀ key vs, Watches I A (env.noteCall key vs) (env'.noteCall key vs)
  settle : ∀ c, asked c → Watches I A (env.settle c) (env'.settle c)

theorem UnderWatch.mono {asked' : Coordinate → Prop} (h : UnderWatch I A asked env env')
    (hle : ∀ c, asked' c → asked c) : UnderWatch I A asked' env env' :=
  { h with settle := fun c hc => h.settle c (hle c hc) }

theorem UnderWatch.throw {α : Type} {e : Failure} (h : UnderWatch I A asked env env')
    (he : OwnFailure env.functions e) :
    Watches I A (throw e : Evaluation State α) (throw e : Evaluation (State × List Alarm) α) :=
  watches_throw (he.ne_circular h.reportsNoCycle)

theorem UnderWatch.valueOf (h : UnderWatch I A asked env env') (address : String)
    (settled : Option Cell) :
    Watches I A (valueOf address settled : Evaluation State Value) (valueOf address settled) := by
  unfold Formula.valueOf
  split
  · exact watches_pure _
  · split
    · exact h.throw (.dependentCell _ _)
    · exact watches_pure _

theorem UnderWatch.members {cs : List Coordinate} (h : UnderWatch I A (· ∈ cs) env env') :
    Watches I A (members env cs) (members env' cs) := by
  induction cs with
  | nil => exact watches_pure _
  | cons c cs ih =>
    have hRest := ih (h.mono fun d hd => List.mem_cons_of_mem c hd)
    rw [Formula.members, Formula.members]
    refine (h.settle c List.mem_cons_self).bind fun cell => ?_
    refine (h.valueOf c.address cell).bind fun v => hRest.bind fun vs => ?_
    cases v <;> exact watches_pure _

theorem UnderWatch.operand (h : UnderWatch I A asked env env') {fault : Value → FormulaFault}
    (hFault : ∀ v, OwnFailure env.functions (.formula (fault v))) (v : Value) :
    Watches I A (operand fault v : Evaluation State Number) (operand fault v) := by
  unfold Formula.operand
  split
  · exact watches_pure _
  · split
    · exact h.throw (hFault v)
    · exact h.throw (.numeric _)

theorem UnderWatch.callFunction (h : UnderWatch I A asked env env') (function : String)
    {f : Function} (hFunction : env.functions.byName? function = some f) (vs : List Value) :
    Watches I A (callFunction function f vs : Evaluation State Value)
      (callFunction function f vs) := by
  unfold Formula.callFunction
  split
  · exact watches_pure _
  · exact h.throw (.reported hFunction ‹_›)
  · exact h.throw (.functionFailed _ _)

theorem UnderWatch.range (first last : String)
    (h : UnderWatch I A ((range first last).Asks env.rangeLimit) env env') :
    Watches I A ((range first last).evaluate env) ((range first last).evaluate env') := by
  rw [evaluate, evaluate, h.rangeLimit]
  cases hCorners : corners first last with
  | error e => exact h.throw (plainFailure_of_corners hCorners).own
  | ok ends =>
    obtain ⟨a, b⟩ := ends
    simp only [lift_ok, pure_bind]
    cases hLimit : exceeds env.rangeLimit a b with
    | true =>
      simp only [if_true]
      split
      · exact h.throw (.rangeTooLarge _ _ _)
      · exact h.throw (.numeric _)
    | false =>
      simp only [Bool.false_eq_true, if_false]
      refine (UnderWatch.members (h.mono fun c hc => ?_)).bind fun vs => watches_pure _
      exact (asks_range first last).mpr ⟨a, b, hCorners, hLimit, hc⟩

mutual

/-- A formula meets a circular reference exactly where a cell that it asks for does. -/
theorem evaluate_watches (f : Formula) (h : UnderWatch I A (f.Asks env.rangeLimit) env env') :
    Watches I A (f.evaluate env) (f.evaluate env') := by
  cases f with
  | text quoted => exact watches_pure _
  | number digits =>
    rw [evaluate, evaluate]
    refine Watches.bind ?_ fun n => watches_pure _
    cases Number.ofDigits digits with
    | ok n => exact watches_pure _
    | error fault => exact h.throw (.numeric fault)
  | cell address =>
    rw [evaluate, evaluate]
    cases hAddress : Coordinate.ofAddress address with
    | error e => exact h.throw (plainFailure_of_ofAddress hAddress).own
    | ok c =>
      simp only [lift_ok, pure_bind]
      exact (h.settle c ((asks_cell address).mpr hAddress)).bind fun cell => h.valueOf _ cell
  | range first last => exact h.range first last
  | negative f =>
    rw [evaluate, evaluate]
    refine (evaluate_watches f (h.mono fun c hc => (asks_negative f).mpr hc)).bind fun v => ?_
    exact (h.operand (fun v => .notNegatable v) v).bind fun n => watches_pure _
  | call function arguments =>
    rw [evaluate, evaluate, h.functions]
    cases hFunction : env.functions.byName? function with
    | none => exact h.throw (.unknownFunction _ _)
    | some g =>
      refine (evaluateAll_watches arguments
        (h.mono fun c hc => (asks_call function arguments).mpr hc)).bind fun vs => ?_
      exact (h.noteCall _ vs).bind fun _ => h.callFunction function hFunction vs
  | binary operation left right =>
    rw [evaluate, evaluate]
    refine (evaluate_watches left
      (h.mono fun c hc => (asks_binary operation left right).mpr (.inl hc))).bind fun v => ?_
    refine (h.operand (fun v => .notNumeric _ v) v).bind fun a => ?_
    refine (evaluate_watches right
      (h.mono fun c hc => (asks_binary operation left right).mpr (.inr hc))).bind fun w => ?_
    refine (h.operand (fun v => .notNumeric _ v) w).bind fun b => ?_
    exact (watches_lift fun path hPath => nomatch plainFailure_of_apply hPath).bind
      fun n => watches_pure _

theorem evaluateAll_watches (fs : List Formula)
    (h : UnderWatch I A (AsksAny env.rangeLimit fs) env env') :
    Watches I A (evaluateAll env fs) (evaluateAll env' fs) := by
  cases fs with
  | nil => exact watches_pure _
  | cons f fs =>
    rw [evaluateAll, evaluateAll]
    refine (evaluate_watches f
      (h.mono fun c hc => (asksAny_cons f fs).mpr (.inl hc))).bind fun v => ?_
    refine (evaluateAll_watches fs
      (h.mono fun c hc => (asksAny_cons f fs).mpr (.inr hc))).bind fun vs => ?_
    exact watches_pure _

end

end Formula
end Spreadsheet
