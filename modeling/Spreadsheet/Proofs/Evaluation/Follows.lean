import Spreadsheet.Formula.Evaluation
import Spreadsheet.Proofs.Formula.Nodes

/-!
# Evaluations that follow a result

An evaluation follows a result when it ends in that result on every state of interest and stays
among these states. `evaluate_follows` reduces this for a whole formula to the cells that the
formula asks for: two ways to settle cells that agree there give the same value or the same fault.
-/

set_option autoImplicit false

namespace Spreadsheet

namespace Evaluation

variable {State α β : Type}

/-! ## Running an evaluation -/

theorem bind_of_ok {x : Evaluation State α} {k : α → Evaluation State β} {s s' : State} {a : α}
    (h : x s = .ok a s') : (x >>= k) s = k a s' := by
  change EStateM.bind x k s = _
  rw [EStateM.bind, h]

theorem bind_of_error {x : Evaluation State α} {k : α → Evaluation State β} {s s' : State}
    {e : Failure} (h : x s = .error e s') : (x >>= k) s = .error e s' := by
  change EStateM.bind x k s = _
  rw [EStateM.bind, h]

theorem outcome_of_ok {x : Evaluation State α} {s s' : State} {a : α} (h : x s = .ok a s') :
    x.outcome s = .ok a := by rw [outcome, h]

theorem outcome_of_error {x : Evaluation State α} {s s' : State} {e : Failure}
    (h : x s = .error e s') : x.outcome s = .error e := by rw [outcome, h]

theorem exists_of_outcome_ok {x : Evaluation State α} {s : State} {a : α}
    (h : x.outcome s = .ok a) : ∃ t, x s = .ok a t := by
  cases hx : x s with
  | ok b t =>
    rw [outcome_of_ok hx] at h
    cases h
    exact ⟨t, rfl⟩
  | error e t =>
    rw [outcome_of_error hx] at h
    cases h

theorem exists_of_outcome_error {x : Evaluation State α} {s : State} {e : Failure}
    (h : x.outcome s = .error e) : ∃ t, x s = .error e t := by
  cases hx : x s with
  | ok a t =>
    rw [outcome_of_ok hx] at h
    cases h
  | error e' t =>
    rw [outcome_of_error hx] at h
    cases h
    exact ⟨t, rfl⟩

theorem attempt_of_ok {x : Evaluation State α} {s s' : State} {a : α} (h : x s = .ok a s') :
    attempt x s = .ok (.ok a) s' := by rw [attempt, h]

theorem attempt_of_error {x : Evaluation State α} {s s' : State} {e : Failure}
    (h : x s = .error e s') : attempt x s = .ok (.error e) s' := by rw [attempt, h]

@[simp] theorem outcome_pure (a : α) (s : State) :
    (pure a : Evaluation State α).outcome s = .ok a :=
  rfl

@[simp] theorem outcome_throw (e : Failure) (s : State) :
    (throw e : Evaluation State α).outcome s = .error e := rfl

@[simp] theorem lift_ok (a : α) : (lift (.ok a) : Evaluation State α) = pure a := rfl

@[simp] theorem lift_error (e : Failure) : (lift (.error e) : Evaluation State α) = throw e := rfl

@[simp] theorem outcome_lift (r : Except Failure α) (s : State) :
    (lift r : Evaluation State α).outcome s = r := by cases r <;> rfl

/-! ## Following a result -/

def ended : Except Failure α → State → EStateM.Result Failure State α
  | .ok a, s => .ok a s
  | .error e, s => .error e s

theorem outcome_of_ended {x : Evaluation State α} {r : Except Failure α} {s s' : State}
    (h : x s = ended r s') : x.outcome s = r := by
  cases r with
  | ok a => exact outcome_of_ok h
  | error e => exact outcome_of_error h

theorem exists_ended (x : Evaluation State α) (s : State) : ∃ r t, x s = ended r t := by
  cases h : x s with
  | ok a t => exact ⟨.ok a, t, rfl⟩
  | error e t => exact ⟨.error e, t, rfl⟩

theorem ended_inj {r r' : Except Failure α} {s t : State} (h : ended r s = ended r' t) :
    r = r' ∧ s = t := by
  cases r <;> cases r' <;> cases h <;> exact ⟨rfl, rfl⟩

theorem eq_of_ended_ok {r : Except Failure α} {a : α} {s t : State} (h : .ok a s = ended r t) :
    r = .ok a ∧ t = s := by
  obtain ⟨rfl, rfl⟩ := ended_inj (r := .ok a) h
  exact ⟨rfl, rfl⟩

theorem eq_of_ended_error {r : Except Failure α} {e : Failure} {s t : State}
    (h : .error e s = ended r t) : r = .error e ∧ t = s := by
  obtain ⟨rfl, rfl⟩ := ended_inj (r := .error e) h
  exact ⟨rfl, rfl⟩

/-- From states in `I` the evaluation ends in the result, again in `I`. Nothing is promised for
results with a failure that is set aside, and the evaluation may slip into some failures instead. -/
def Follows (I : State → Prop) (aside slips : Failure → Prop) (r : Except Failure α)
    (y : Evaluation State α) : Prop :=
  (∀ e, r = .error e → ¬ aside e) → ∀ s, I s →
    ∃ s', I s' ∧ (y s = ended r s' ∨ ∃ e, slips e ∧ y s = .error e s')

/-- Getting too deep, where that may happen. -/
def tooDeepIf (short : Prop) (e : Failure) : Prop := short ∧ e = .tooDeep

variable {I : State → Prop} {aside slips : Failure → Prop}

theorem follows_lift (r : Except Failure α) : Follows I aside slips r (lift r) := by
  intro _ s hs
  cases r with
  | ok a => exact ⟨s, hs, .inl rfl⟩
  | error e => exact ⟨s, hs, .inl rfl⟩

theorem follows_pure (a : α) : Follows I aside slips (.ok a) (pure a) := follows_lift (.ok a)

theorem follows_throw (e : Failure) : Follows (α := α) I aside slips (.error e) (throw e) :=
  follows_lift (.error e)

theorem Follows.bind {x : Evaluation Unit α} {y : Evaluation State α}
    {k : α → Evaluation Unit β} {l : α → Evaluation State β}
    (h : Follows I aside slips (x.outcome ()) y)
    (hk : ∀ a, Follows I aside slips ((k a).outcome ()) (l a)) :
    Follows I aside slips ((x >>= k).outcome ()) (y >>= l) := by
  intro hAside s hs
  cases hx : x () with
  | ok a u =>
    rw [outcome_of_ok hx] at h
    rw [outcome, bind_of_ok hx] at hAside ⊢
    obtain ⟨s', hs', hy | ⟨e', hSlip, hy⟩⟩ := h (by simp) s hs
    · rw [bind_of_ok hy]
      exact hk a hAside s' hs'
    · exact ⟨s', hs', .inr ⟨e', hSlip, bind_of_error hy⟩⟩
  | error e u =>
    rw [outcome_of_error hx] at h
    rw [outcome_of_error (bind_of_error hx)] at hAside ⊢
    obtain ⟨s', hs', hy | ⟨e', hSlip, hy⟩⟩ := h (by simpa using hAside) s hs
    · exact ⟨s', hs', .inl (bind_of_error hy)⟩
    · exact ⟨s', hs', .inr ⟨e', hSlip, bind_of_error hy⟩⟩

theorem follows_of_aside {e : Failure} (h : aside e) (y : Evaluation State α) :
    Follows I aside slips (.error e) y :=
  fun hAside => absurd h (hAside e rfl)

theorem Follows.mono {aside' : Failure → Prop} {r : Except Failure α} {y : Evaluation State α}
    (h : Follows I aside slips r y) (hle : ∀ e, aside e → aside' e) :
    Follows I aside' slips r y :=
  fun hAside s hs => h (fun e he hSet => hAside e he (hle e hSet)) s hs

end Evaluation

open Evaluation

namespace Formula

variable {State : Type} {I : State → Prop} {aside slips : Failure → Prop}
variable {one : Surroundings Unit} {other : Surroundings State}

/-- Two surroundings agree on the cells that are asked for, as far as their values and errors go,
and on everything else that an evaluation uses. -/
structure Agree (I : State → Prop) (aside slips : Failure → Prop)
    (asked : Coordinate → Prop) (one : Surroundings Unit) (other : Surroundings State) : Prop where
  rangeLimit : other.rangeLimit = one.rangeLimit
  functions : other.functions = one.functions
  noteCall : ∀ key arguments,
    Follows I aside slips ((one.noteCall key arguments).outcome ()) (other.noteCall key arguments)
  settle : ∀ c, asked c → ∀ address,
    Follows I aside slips ((do valueOf address (← one.settle c)).outcome ())
      (do valueOf address (← other.settle c))

theorem Agree.mono {asked asked' : Coordinate → Prop}
    (h : Agree I aside slips asked one other) (hle : ∀ c, asked' c → asked c) :
    Agree I aside slips asked' one other :=
  { h with settle := fun c hc => h.settle c (hle c hc) }

theorem valueOf_follows (address : String) (settled : Option Cell) :
    Follows I aside slips ((valueOf address settled : Evaluation Unit Value).outcome ())
      (valueOf address settled) := by
  unfold valueOf
  split
  · exact follows_pure _
  · split
    · exact follows_throw _
    · exact follows_pure _

theorem members_follows {cs : List Coordinate} (h : Agree I aside slips (· ∈ cs) one other) :
    Follows I aside slips ((members one cs).outcome ()) (members other cs) := by
  induction cs with
  | nil => exact follows_pure _
  | cons c cs ih =>
    have hRest := ih (h.mono fun d hd => List.mem_cons_of_mem c hd)
    have hFirst := h.settle c List.mem_cons_self c.address
    simp only [members]
    simp only [← bind_assoc]
    refine hFirst.bind fun v => hRest.bind fun vs => ?_
    split <;> exact follows_pure _

theorem operand_follows (fault : Value → FormulaFault) (v : Value) :
    Follows I aside slips ((operand fault v : Evaluation Unit Number).outcome ())
      (operand fault v) := by
  unfold operand
  split
  · exact follows_pure _
  · split <;> exact follows_throw _

theorem callFunction_follows (function : String) (f : Function) (vs : List Value) :
    Follows I aside slips ((callFunction function f vs : Evaluation Unit Value).outcome ())
      (callFunction function f vs) := by
  unfold callFunction
  split
  · exact follows_pure _
  · exact follows_throw _
  · exact follows_throw _

theorem numeric_follows {α : Type} (r : Except NumericFault α) :
    Follows I aside slips ((numeric r : Evaluation Unit α).outcome ()) (numeric r) := by
  cases r with
  | ok a => exact follows_pure a
  | error fault => exact follows_throw _

theorem lift_follows {α : Type} (r : Except Failure α) :
    Follows I aside slips ((lift r : Evaluation Unit α).outcome ()) (lift r) := by
  rw [outcome_lift]
  exact follows_lift r

mutual

/-- A formula evaluates alike where the cells that it asks for are settled alike. -/
theorem evaluate_follows (f : Formula)
    (h : Agree I aside slips (f.Asks one.rangeLimit) one other) :
    Follows I aside slips ((f.evaluate one).outcome ()) (f.evaluate other) := by
  cases f with
  | text quoted => exact follows_pure _
  | number digits =>
    rw [evaluate, evaluate]
    exact (numeric_follows _).bind fun n => follows_pure _
  | cell address =>
    rw [evaluate, evaluate]
    cases hAddress : Coordinate.ofAddress address with
    | error e => exact follows_throw e
    | ok c => exact h.settle c ((asks_cell address).mpr hAddress) (Text.upper address)
  | range first last =>
    rw [evaluate, evaluate, h.rangeLimit]
    cases hCorners : corners first last with
    | error e => exact follows_throw e
    | ok ends =>
      obtain ⟨a, b⟩ := ends
      simp only [lift_ok, pure_bind]
      cases hLimit : exceeds one.rangeLimit a b with
      | true =>
        simp only [if_true]
        split <;> exact follows_throw _
      | false =>
        simp only [Bool.false_eq_true, if_false]
        refine (members_follows (h.mono fun c hc => ?_)).bind fun vs => follows_pure _
        exact (asks_range first last).mpr ⟨a, b, hCorners, hLimit, hc⟩
  | negative f =>
    rw [evaluate, evaluate]
    refine (evaluate_follows f (h.mono fun c hc => (asks_negative f).mpr hc)).bind fun v => ?_
    exact (operand_follows _ v).bind fun n => follows_pure _
  | call function arguments =>
    rw [evaluate, evaluate, h.functions]
    cases one.functions.byName? function with
    | none => exact follows_throw _
    | some g =>
      refine (evaluateAll_follows arguments
        (h.mono fun c hc => (asks_call function arguments).mpr hc)).bind fun vs => ?_
      exact (h.noteCall _ vs).bind fun _ => callFunction_follows function g vs
  | binary operation left right =>
    rw [evaluate, evaluate]
    refine (evaluate_follows left
      (h.mono fun c hc => (asks_binary operation left right).mpr (.inl hc))).bind fun v => ?_
    refine (operand_follows _ v).bind fun a => ?_
    refine (evaluate_follows right
      (h.mono fun c hc => (asks_binary operation left right).mpr (.inr hc))).bind fun w => ?_
    refine (operand_follows _ w).bind fun b => ?_
    exact (lift_follows _).bind fun n => follows_pure _

theorem evaluateAll_follows (fs : List Formula)
    (h : Agree I aside slips (AsksAny one.rangeLimit fs) one other) :
    Follows I aside slips ((evaluateAll one fs).outcome ()) (evaluateAll other fs) := by
  cases fs with
  | nil => exact follows_pure _
  | cons f fs =>
    rw [evaluateAll, evaluateAll]
    refine (evaluate_follows f (h.mono fun c hc => (asksAny_cons f fs).mpr (.inl hc))).bind
      fun v => ?_
    refine (evaluateAll_follows fs (h.mono fun c hc => (asksAny_cons f fs).mpr (.inr hc))).bind
      fun vs => ?_
    exact follows_pure _

end

end Formula
end Spreadsheet
