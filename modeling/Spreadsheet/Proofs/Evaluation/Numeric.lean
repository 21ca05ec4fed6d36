import Spreadsheet.Proofs.Evaluation.OwnFailure

/-!
# Where faults come from

A numeric fault is never the fault of a formula, and no cell records it. One that the evaluation of
a formula ends in comes from a cell, or from a node of the formula: a whole number that is too long
to be read or written, or one that has no place among the doubles. Functions pass none on; what goes
wrong inside them is reported under the name of a call in the formula.
-/

set_option autoImplicit false

namespace Spreadsheet

open Evaluation

namespace Evaluation

variable {State α β : Type} {Q : Failure → Prop}

/-- The result is one that the evaluation comes to from some state. -/
def Gives (x : Evaluation State α) (a : α) : Prop := ∃ s t, x s = .ok a t

theorem FailsOnly.bind {x : Evaluation State α} {k : α → Evaluation State β} (h : FailsOnly Q x)
    (hk : ∀ a, Gives x a → FailsOnly Q (k a)) : FailsOnly Q (x >>= k) := by
  intro s e u hRun
  cases hFirst : x s with
  | error e' t =>
    rw [bind_of_error hFirst] at hRun
    cases hRun
    exact h s e u hFirst
  | ok a t =>
    rw [bind_of_ok hFirst] at hRun
    exact hk a ⟨s, t, hFirst⟩ t e u hRun

end Evaluation

theorem Coordinate.ofAddress_error {address : String} {e : Failure}
    (h : ofAddress address = .error e) :
    (∃ fault, e = .formula fault) ∨ ∃ fault, e = .numeric fault := by
  unfold ofAddress at h
  split at h
  · cases h
    exact .inl ⟨_, rfl⟩
  · split at h <;> cases h
    · exact .inr ⟨_, rfl⟩
    · exact .inl ⟨_, rfl⟩

theorem Value.number?_eq_some {v : Value} {n : Number} (h : v.number? = some n) :
    v = .ofNumber n := by
  cases v <;> cases h <;> rfl

namespace Number

/-- Two numbers that an operation takes as doubles, one of them a whole number without one. -/
def Clash (a b : Number) : Prop :=
  ∃ n x, (a = .int n ∧ b = .float x ∨ a = .float x ∧ b = .int n) ∧ Binary64.ofInt n = none

/-- Two whole numbers whose quotient has no double. -/
def QuotientBeyond (a b : Number) : Prop :=
  ∃ m n, a = .int m ∧ b = .int n ∧
    Binary64.nearest ((m < 0) != (n < 0)) m.natAbs n.natAbs = none

theorem toFloat_int_error {n : Int} {fault : NumericFault}
    (h : (int n).toFloat = .error fault) :
    Binary64.ofInt n = none ∧ fault = .integerBeyondFloat := by
  simp only [toFloat] at h
  split at h <;> cases h
  exact ⟨‹_›, rfl⟩

theorem clash_of_floats {onFloats : Float → Float → Float} {a b : Number} {fault : NumericFault}
    (hMixed : ∀ m n, a = .int m → b ≠ .int n)
    (h : (do
      let x ← a.toFloat
      let y ← b.toFloat
      return float (onFloats x y) : Except NumericFault Number) = .error fault) :
    fault = .integerBeyondFloat ∧ Clash a b := by
  cases a with
  | int n =>
    cases b with
    | int m => exact absurd rfl (hMixed n m rfl)
    | float y =>
      cases hFloat : (int n).toFloat with
      | ok x =>
        rw [hFloat] at h
        cases h
      | error fault' =>
        rw [hFloat] at h
        cases h
        obtain ⟨hNone, rfl⟩ := toFloat_int_error hFloat
        exact ⟨rfl, n, y, .inl ⟨rfl, rfl⟩, hNone⟩
  | float x =>
    cases b with
    | float y => cases h
    | int n =>
      cases hFloat : (int n).toFloat with
      | ok y =>
        rw [hFloat] at h
        cases h
      | error fault' =>
        rw [hFloat] at h
        cases h
        obtain ⟨hNone, rfl⟩ := toFloat_int_error hFloat
        exact ⟨rfl, n, x, .inr ⟨rfl, rfl⟩, hNone⟩

theorem lift_error {onInts : Int → Int → Int} {onFloats : Float → Float → Float} {a b : Number}
    {fault : NumericFault} (h : lift onInts onFloats a b = .error fault) :
    fault = .integerBeyondFloat ∧ Clash a b := by
  unfold lift at h
  split at h
  · cases h
  · exact clash_of_floats (fun m n ha hb => by simp_all) h

theorem mapError_numeric {r : Except NumericFault Number} {fault : NumericFault}
    (h : r.mapError Failure.numeric = .error (.numeric fault)) : r = .error fault := by
  cases r with
  | ok n => cases h
  | error fault' =>
    cases h
    rfl

/-- Operations on numbers have no answer beyond the doubles. On two whole numbers only division goes
there. -/
theorem Operation.apply_numeric {operation : Operation} {a b : Number} {fault : NumericFault}
    (h : operation.apply a b = .error (.numeric fault)) :
    (fault = .integerBeyondFloat ∧ Clash a b) ∨
      operation = .divide ∧ fault = .quotientBeyondFloat ∧ QuotientBeyond a b := by
  cases operation with
  | add => exact .inl (lift_error (mapError_numeric h))
  | subtract => exact .inl (lift_error (mapError_numeric h))
  | multiply => exact .inl (lift_error (mapError_numeric h))
  | divide =>
    simp only [apply] at h
    split at h
    · cases h
    · have hDiv := mapError_numeric h
      unfold div at hDiv
      split at hDiv
      · split at hDiv <;> cases hDiv
        exact .inr ⟨rfl, rfl, _, _, rfl, rfl, ‹_›⟩
      · exact .inl (clash_of_floats (fun m n ha hb => by simp_all) hDiv)

end Number

namespace Formula

variable {State : Type}

/-- What at a node ends an evaluation in a numeric fault. -/
inductive NumericSource (env : Surroundings State) : Formula → NumericFault → Prop
  | literal {digits : String} {fault : NumericFault} (h : Number.ofDigits digits = .error fault) :
      NumericSource env (number digits) fault
  | row {f : Formula} {address : String} {fault : NumericFault} (hOwn : address ∈ f.ownAddresses)
      (h : Coordinate.ofAddress address = .error (.numeric fault)) : NumericSource env f fault
  /-- The size of a refused range is too long for the message. -/
  | size {first last : String} {a b : Coordinate} (hCorners : corners first last = .ok (a, b))
      (hLimit : exceeds env.rangeLimit a b = true)
      (h : ¬ (Decimal.isWritable (Coordinate.rectangleSize a b) &&
        Decimal.isWritable (env.rangeLimit.getD 0)) = true) :
      NumericSource env (range first last) .tooLongToWrite
  /-- An operand that is no number is too long for the message. -/
  | negated {f : Formula} {v : Value} (hv : Gives (f.evaluate env) v) (hKind : v.number? = none)
      (h : v.isWritable = false) : NumericSource env (negative f) .tooLongToWrite
  | operand {operation : Number.Operation} {left right : Formula} {v : Value}
      (hv : Gives (left.evaluate env) v ∨ Gives (right.evaluate env) v) (hKind : v.number? = none)
      (h : v.isWritable = false) : NumericSource env (binary operation left right) .tooLongToWrite
  | clash {operation : Number.Operation} {left right : Formula} {a b : Number}
      (ha : Gives (left.evaluate env) (.ofNumber a)) (hb : Gives (right.evaluate env) (.ofNumber b))
      (h : a.Clash b) : NumericSource env (binary operation left right) .integerBeyondFloat
  | quotient {left right : Formula} {a b : Number} (ha : Gives (left.evaluate env) (.ofNumber a))
      (hb : Gives (right.evaluate env) (.ofNumber b)) (h : a.QuotientBeyond b) :
      NumericSource env (binary .divide left right) .quotientBeyondFloat

/-- The faults of formulas that come from a cell, a function or some nodes. -/
inductive FaultSource (functions : Registry) (parts : List Formula) : FormulaFault → Prop
  | plain {fault : FormulaFault} (h : PlainFailure (.formula fault)) :
      FaultSource functions parts fault
  | dependent (address cause : String) :
      FaultSource functions parts (.dependentCell address cause)
  | reported {fault : FormulaFault} (h : functions.Reports fault) :
      FaultSource functions parts fault
  | failed {function : String} {arguments : List Formula} (h : call function arguments ∈ parts)
      (text : String) :
      FaultSource functions parts (.functionFailed function (function ++ ": " ++ text))

theorem FaultSource.mono {functions : Registry} {parts parts' : List Formula}
    {fault : FormulaFault} (h : FaultSource functions parts' fault) (hParts : parts' ⊆ parts) :
    FaultSource functions parts fault := by
  cases h with
  | plain hPlain => exact .plain hPlain
  | dependent address cause => exact .dependent address cause
  | reported hReports => exact .reported hReports
  | failed hCall text => exact .failed (hParts hCall) text

variable {limit : Option Int} {e : Failure} {env : Surroundings State}

theorem self_mem_nodes (f : Formula) : f ∈ f.nodes := by
  cases f <;> simp [nodes]

/-! ## The reference walk -/

theorem corners_numeric (env : Surroundings State) {first last : String}
    (h : corners first last = .error e) :
    (∃ fault, e = .formula fault) ∨
      ∃ fault, e = .numeric fault ∧ NumericSource env (range first last) fault := by
  unfold corners at h
  cases hFirst : Coordinate.ofAddress first with
  | error e' =>
    rw [hFirst] at h
    cases h
    refine (Coordinate.ofAddress_error hFirst).imp_right ?_
    rintro ⟨fault, rfl⟩
    exact ⟨fault, rfl, .row (by simp [ownAddresses]) hFirst⟩
  | ok a =>
    cases hLast : Coordinate.ofAddress last with
    | error e' =>
      rw [hFirst, hLast] at h
      cases h
      refine (Coordinate.ofAddress_error hLast).imp_right ?_
      rintro ⟨fault, rfl⟩
      exact ⟨fault, rfl, .row (by simp [ownAddresses]) hLast⟩
    | ok b =>
      rw [hFirst, hLast] at h
      cases h

theorem orNone_error {found : Except Failure (List Coordinate)} (h : orNone found = .error e) :
    found = .error e ∧ ∀ fault, e ≠ .formula fault := by
  cases found with
  | ok cs => cases h
  | error e' =>
    cases e' with
    | formula fault => cases h
    | numeric fault =>
      cases h
      exact ⟨rfl, nofun⟩
    | tooDeep =>
      cases h
      exact ⟨rfl, nofun⟩

/-- The reference walk fails for a row that it cannot read, and for nothing else. -/
theorem references_numeric (f : Formula) (h : f.references limit = .error e) :
    ∃ g ∈ f.nodes, ∃ fault, e = .numeric fault ∧ NumericSource env g fault := by
  rw [references_gathers.eq_gathered] at h
  obtain ⟨before, g, after, hNodes, -, hOwn⟩ := gathered_eq_error h
  refine ⟨g, by simp [hNodes], ?_⟩
  cases g with
  | cell address =>
    obtain ⟨hFound, hNot⟩ := orNone_error hOwn
    cases hAddress : Coordinate.ofAddress address with
    | ok c =>
      rw [hAddress] at hFound
      cases hFound
    | error e' =>
      rw [hAddress] at hFound
      cases hFound
      rcases Coordinate.ofAddress_error hAddress with ⟨fault, rfl⟩ | ⟨fault, rfl⟩
      · exact absurd rfl (hNot fault)
      · exact ⟨fault, rfl, .row (List.mem_singleton_self address) hAddress⟩
  | range first last =>
    obtain ⟨hFound, hNot⟩ := orNone_error hOwn
    cases hCorners : corners first last with
    | ok ends =>
      rw [hCorners] at hFound
      cases hFound
    | error e' =>
      rw [hCorners] at hFound
      cases hFound
      rcases corners_numeric env hCorners with ⟨fault, rfl⟩ | hSource
      · exact absurd rfl (hNot fault)
      · exact hSource
  | _ => cases hOwn

/-! ## Evaluation -/

variable {Q : Failure → Prop}

/-- A property of the faults that some nodes are the source of, and of the failures of the cells and
the notes in some surroundings. -/
structure Bears (Q : Failure → Prop) (parts : List Formula) (asked : Coordinate → Prop)
    (env : Surroundings State) : Prop where
  formula : ∀ fault, FaultSource env.functions parts fault → Q (.formula fault)
  numeric : ∀ g ∈ parts, ∀ fault, NumericSource env g fault → Q (.numeric fault)
  noteCall : ∀ key arguments, FailsOnly Q (env.noteCall key arguments)
  settle : ∀ c, asked c → FailsOnly Q (env.settle c)

section Bears

variable {parts : List Formula} {asked : Coordinate → Prop}

theorem Bears.mono {parts' : List Formula} {asked' : Coordinate → Prop}
    (h : Bears Q parts asked env) (hParts : parts' ⊆ parts) (hAsked : ∀ c, asked' c → asked c) :
    Bears Q parts' asked' env :=
  { h with
    formula := fun fault hSource => h.formula fault (hSource.mono hParts)
    numeric := fun g hg => h.numeric g (hParts hg)
    settle := fun c hc => h.settle c (hAsked c hc) }

theorem Bears.plain (h : Bears Q parts asked env) {fault : FormulaFault}
    (hPlain : PlainFailure (.formula fault)) :
    FailsOnly Q (Evaluation.fail fault : Evaluation State Value) :=
  failsOnly_throw (h.formula fault (.plain hPlain))

theorem Bears.valueOf (h : Bears Q parts asked env) (address : String) (cell : Option Cell) :
    FailsOnly Q (valueOf address cell : Evaluation State Value) := by
  unfold Formula.valueOf
  split
  · exact failsOnly_pure _
  · split
    · exact failsOnly_throw (h.formula _ (.dependent _ _))
    · exact failsOnly_pure _

theorem Bears.members {cs : List Coordinate} (h : Bears Q parts (· ∈ cs) env) :
    FailsOnly Q (members env cs) := by
  induction cs with
  | nil => exact failsOnly_pure _
  | cons c cs ih =>
    have hRest := ih (h.mono (List.Subset.refl _) fun d hd => List.mem_cons_of_mem c hd)
    rw [Formula.members]
    refine (h.settle c List.mem_cons_self).bind fun cell _ => (h.valueOf c.address cell).bind
      fun v _ => hRest.bind fun vs _ => ?_
    split <;> exact failsOnly_pure _

/-- An operand is refused under a fault of the formula, unless it is too long for the message. -/
theorem Bears.operand (h : Bears Q parts asked env) {fault : Value → FormulaFault} {v : Value}
    (hFault : PlainFailure (.formula (fault v)))
    (hLong : v.number? = none → v.isWritable = false → Q (.numeric .tooLongToWrite)) :
    FailsOnly Q (operand fault v : Evaluation State Number) := by
  unfold Formula.operand
  split
  · exact failsOnly_pure _
  · cases hWritable : v.isWritable with
    | true => exact failsOnly_throw (h.formula _ (.plain hFault))
    | false => exact failsOnly_throw (hLong ‹_› hWritable)

theorem eq_ofNumber_of_operand {fault : Value → FormulaFault} {v : Value} {n : Number}
    (h : Gives (operand fault v : Evaluation State Number) n) : v = .ofNumber n := by
  obtain ⟨s, t, hRun⟩ := h
  unfold Formula.operand at hRun
  cases hNumber : v.number? with
  | some m =>
    rw [hNumber] at hRun
    cases hRun
    exact Value.number?_eq_some hNumber
  | none =>
    rw [hNumber] at hRun
    cases hWritable : v.isWritable <;> rw [hWritable] at hRun <;> cases hRun

theorem Bears.callFunction (h : Bears Q parts asked env) {function : String}
    {arguments : List Formula} {f : Function} (hCall : call function arguments ∈ parts)
    (hFunction : env.functions.byName? function = some f) (vs : List Value) :
    FailsOnly Q (callFunction function f vs : Evaluation State Value) := by
  unfold Formula.callFunction
  split
  · exact failsOnly_pure _
  · rename_i hFault
    exact failsOnly_throw (h.formula _ (.reported ⟨_, _, _, hFunction, hFault⟩))
  · exact failsOnly_throw (h.formula _ (.failed hCall _))

end Bears

mutual

/-- A formula fails with a fault of formulas, with a numeric fault that one of its nodes is the
source of, or with the failure of a cell that it asks for. -/
theorem evaluate_bears (f : Formula) (h : Bears Q f.nodes (f.Asks env.rangeLimit) env) :
    FailsOnly Q (f.evaluate env) := by
  cases f with
  | text quoted => exact failsOnly_pure _
  | number digits =>
    rw [evaluate]
    refine FailsOnly.bind ?_ fun n _ => failsOnly_pure _
    cases hDigits : Number.ofDigits digits with
    | ok n => exact failsOnly_pure _
    | error fault => exact failsOnly_throw (h.numeric _ (self_mem_nodes _) fault (.literal hDigits))
  | cell address =>
    rw [evaluate]
    cases hAddress : Coordinate.ofAddress address with
    | error e =>
      refine failsOnly_throw ?_
      rcases Coordinate.ofAddress_error hAddress with ⟨fault, rfl⟩ | ⟨fault, rfl⟩
      · exact h.formula fault (.plain (plainFailure_of_ofAddress hAddress))
      · exact h.numeric _ (self_mem_nodes _) fault (.row (List.mem_singleton_self address) hAddress)
    | ok c =>
      simp only [lift_ok, pure_bind]
      exact (h.settle c ((asks_cell address).mpr hAddress)).bind fun cell _ => h.valueOf _ cell
  | range first last =>
    rw [evaluate]
    cases hCorners : corners first last with
    | error e =>
      refine failsOnly_throw ?_
      rcases corners_numeric env hCorners with
        ⟨fault, rfl⟩ | ⟨fault, rfl, hSource⟩
      · exact h.formula fault (.plain (plainFailure_of_corners hCorners))
      · exact h.numeric _ (self_mem_nodes _) fault hSource
    | ok ends =>
      obtain ⟨a, b⟩ := ends
      simp only [lift_ok, pure_bind]
      cases hLimit : exceeds env.rangeLimit a b with
      | true =>
        simp only [if_true]
        split
        · exact h.plain (.rangeTooLarge _ _ _)
        · exact failsOnly_throw (h.numeric _ (self_mem_nodes _) _ (.size hCorners hLimit ‹_›))
      | false =>
        simp only [Bool.false_eq_true, if_false]
        refine (Bears.members (h.mono (List.Subset.refl _) fun c hc => ?_)).bind
          fun vs _ => failsOnly_pure _
        exact (asks_range first last).mpr ⟨a, b, hCorners, hLimit, hc⟩
  | negative f =>
    rw [evaluate]
    have hOperand := evaluate_bears f
      (h.mono (List.subset_cons_self _ _) fun c hc => (asks_negative f).mpr hc)
    refine hOperand.bind fun v hv => FailsOnly.bind
      (h.operand (.notNegatable v) fun hKind hLong => ?_)
      fun n _ => failsOnly_pure _
    exact h.numeric _ (self_mem_nodes _) _ (.negated hv hKind hLong)
  | call function arguments =>
    rw [evaluate]
    cases hFunction : env.functions.byName? function with
    | none => exact h.plain (.unknownFunction _ _)
    | some g =>
      have hArguments := evaluateAll_bears arguments
        (h.mono (List.subset_cons_self _ _) fun c hc => (asks_call function arguments).mpr hc)
      exact hArguments.bind fun vs _ => (h.noteCall _ vs).bind fun _ _ =>
        h.callFunction (self_mem_nodes _) hFunction vs
  | binary operation left right =>
    rw [evaluate]
    have hLeft := evaluate_bears left (h.mono (by simp [nodes])
      fun c hc => (asks_binary operation left right).mpr (.inl hc))
    have hRight := evaluate_bears right (h.mono (by simp [nodes])
      fun c hc => (asks_binary operation left right).mpr (.inr hc))
    -- the left operand is refused before the right one is evaluated
    have hOperand : ∀ v, Gives (left.evaluate env) v ∨ Gives (right.evaluate env) v →
        FailsOnly Q (operand (.notNumeric operation.symbol) v : Evaluation State Number) :=
      fun v hv => h.operand (.notNumeric _ v) fun hKind hLong =>
        h.numeric _ (self_mem_nodes _) _ (.operand hv hKind hLong)
    refine hLeft.bind fun v hv => (hOperand v (.inl hv)).bind fun a ha =>
      hRight.bind fun w hw => (hOperand w (.inr hw)).bind fun b hb =>
        FailsOnly.bind (failsOnly_lift fun e he => ?_) fun n _ => failsOnly_pure _
    rw [eq_ofNumber_of_operand ha] at hv
    rw [eq_ofNumber_of_operand hb] at hw
    cases e with
    | formula fault => exact h.formula fault (.plain (plainFailure_of_apply he))
    | tooDeep => exact nomatch plainFailure_of_apply he
    | numeric fault =>
      refine h.numeric _ (self_mem_nodes _) fault ?_
      rcases Number.Operation.apply_numeric he with
        ⟨rfl, hClash⟩ | ⟨rfl, rfl, hBeyond⟩
      · exact .clash hv hw hClash
      · exact .quotient hv hw hBeyond

theorem evaluateAll_bears (fs : List Formula)
    (h : Bears Q (nodesOfAll fs) (AsksAny env.rangeLimit fs) env) :
    FailsOnly Q (evaluateAll env fs) := by
  cases fs with
  | nil => exact failsOnly_pure _
  | cons f fs =>
    rw [evaluateAll]
    have hFirst := evaluate_bears f
      (h.mono (by simp [nodesOfAll]) fun c hc => (asksAny_cons f fs).mpr (.inl hc))
    have hRest := evaluateAll_bears fs
      (h.mono (by simp [nodesOfAll]) fun c hc => (asksAny_cons f fs).mpr (.inr hc))
    exact hFirst.bind fun v _ => hRest.bind fun vs _ => failsOnly_pure _

end

end Formula
end Spreadsheet
