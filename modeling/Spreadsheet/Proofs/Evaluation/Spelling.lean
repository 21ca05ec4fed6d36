import Spreadsheet.Display
import Spreadsheet.Proofs.Evaluation.Follows
import Spreadsheet.Proofs.Evaluation.Marks
import Spreadsheet.Proofs.Formula.Spelling

/-!
# Evaluating other spellings

A formula and another spelling of it evaluate in lockstep. A message may quote a word as it is
spelled, so failures are compared by their class, and settled cells by their value, by whether they
failed, and by whether they failed for a circular reference.
-/

set_option autoImplicit false

namespace Spreadsheet

open Lexer Evaluation

/-! ## Failures of one class -/

structure FormulaFault.SameClass (fault fault' : FormulaFault) : Prop where
  kindName : fault'.kindName = fault.kindName
  marked : isMarked fault'.message = isMarked fault.message

inductive Failure.SameClass : Failure → Failure → Prop
  | formula {fault fault' : FormulaFault} (h : fault.SameClass fault') :
      SameClass (.formula fault) (.formula fault')
  | numeric (fault : NumericFault) : SameClass (.numeric fault) (.numeric fault)
  | tooDeep : SameClass .tooDeep .tooDeep

theorem FormulaFault.SameClass.refl (fault : FormulaFault) : fault.SameClass fault := ⟨rfl, rfl⟩

theorem Failure.SameClass.refl (e : Failure) : e.SameClass e := by
  cases e with
  | formula fault => exact .formula (.refl fault)
  | numeric fault => exact .numeric fault
  | tooDeep => exact .tooDeep

namespace FormulaFault

/-- Faults of one class that no function words are marked alike. -/
theorem sameClass_of_kindName {fault fault' : FormulaFault} (h : fault'.kindName = fault.kindName)
    (hMarked : isMarked fault.message = false) (hMarked' : isMarked fault'.message = false) :
    fault.SameClass fault' := ⟨h, by rw [hMarked, hMarked']⟩

theorem sameClass_parsing {fault fault' : SyntaxFault} (h : fault.SameKind fault') :
    (parsing fault).SameClass (parsing fault') :=
  sameClass_of_kindName h (isMarked_message nofun) (isMarked_message nofun)

theorem sameClass_rowZero (address address' : String) :
    (rowZero address).SameClass (rowZero address') :=
  sameClass_of_kindName rfl (isMarked_message nofun) (isMarked_message nofun)

theorem sameClass_unknownFunction (name name' : String) (names : List String) :
    (unknownFunction name names).SameClass (unknownFunction name' names) :=
  sameClass_of_kindName rfl (isMarked_message nofun) (isMarked_message nofun)

theorem sameClass_dependentCell (address address' cause cause' : String) :
    (dependentCell address cause).SameClass (dependentCell address' cause') :=
  sameClass_of_kindName rfl (isMarked_message nofun) (isMarked_message nofun)

theorem sameClass_rangeTooLarge (range range' : String) (size limit : Int) :
    (rangeTooLarge range size limit).SameClass (rangeTooLarge range' size limit) :=
  sameClass_of_kindName rfl (isMarked_message nofun) (isMarked_message nofun)

theorem sameClass_functionFailed {name name' : String} (h : SameName name.toList name'.toList)
    (text : String) : (functionFailed name (name ++ ": " ++ text)).SameClass
      (functionFailed name' (name' ++ ": " ++ text)) :=
  sameClass_of_kindName rfl (isMarked_functionFailed _ (isMarked_named h.letters text))
    (isMarked_functionFailed _ (isMarked_named (areLetters_of_case h.letters h.case) text))

end FormulaFault

/-! ## Evaluation in lockstep -/

/-- The cells have the same value, and failed alike. -/
structure SameCell (cell cell' : Cell) : Prop where
  value : cell'.value = cell.value
  failed : cell'.error.isSome = cell.error.isSome
  circular : cell'.isCircular = cell.isCircular

section

variable {State α : Type} {R : State → State → Prop} {A : α → α → Prop}

abbrev EvaluatesAlike (R : State → State → Prop) (A : α → α → Prop) (x y : Evaluation State α) :
    Prop :=
  Lockstep Failure.SameClass R A x y

theorem lift_alike {r r' : Except Failure α} (h : Agrees Failure.SameClass A r r') :
    EvaluatesAlike R A (lift r) (lift r') := by
  cases h with
  | ok h => exact .pure h
  | error h => exact .throw h

theorem lift_alike_refl (r : Except Failure α) : EvaluatesAlike R Eq (lift r) (lift r) := by
  cases r with
  | ok a => exact .pure rfl
  | error e => exact .throw (.refl e)

theorem numeric_alike (r : Except NumericFault α) :
    EvaluatesAlike R Eq (numeric r) (numeric r) := by
  cases r with
  | ok a => exact .pure rfl
  | error fault => exact .throw (.numeric fault)

theorem fail_alike {fault fault' : FormulaFault} (h : fault.SameClass fault') :
    EvaluatesAlike R A (fail fault) (fail fault') := .throw (.formula h)

theorem attempt_alike {x y : Evaluation State α} (h : EvaluatesAlike R A x y) :
    EvaluatesAlike R (Agrees Failure.SameClass A) (attempt x) (attempt y) := by
  intro s t hs
  have hRun := h s t hs
  unfold attempt
  generalize x s = r at hRun ⊢
  generalize y t = r' at hRun ⊢
  cases hRun with
  | ok hValue hState => exact .ok (.ok hValue) hState
  | error hError hState => exact .ok (.error hError) hState

theorem outcome_agrees {x y : Evaluation State α} (h : EvaluatesAlike R A x y) {s t : State}
    (hs : R s t) : Agrees Failure.SameClass A (x.outcome s) (y.outcome t) := by
  have hRun := h s t hs
  unfold outcome
  generalize x s = r at hRun ⊢
  generalize y t = r' at hRun ⊢
  cases hRun with
  | ok hValue => exact .ok hValue
  | error hError => exact .error hError

end

theorem SameAddress.ofAddress_agrees {address address' : String}
    (h : SameAddress address.toList address'.toList) :
    Agrees Failure.SameClass Eq (Coordinate.ofAddress address)
      (Coordinate.ofAddress address') := by
  rcases h.ofAddress with hSame | ⟨hZero, hZero'⟩
  · rw [hSame]
    cases Coordinate.ofAddress address with
    | ok c => exact .ok rfl
    | error e => exact .error (.refl e)
  · rw [hZero, hZero']
    exact .error (.formula (FormulaFault.sameClass_rowZero address address'))

namespace Formula

theorem corners_agrees {first first' last last' : String}
    (hFirst : SameAddress first.toList first'.toList)
    (hLast : SameAddress last.toList last'.toList) :
    Agrees Failure.SameClass Eq (corners first last) (corners first' last') := by
  unfold corners
  exact hFirst.ofAddress_agrees.bindEq fun a => hLast.ofAddress_agrees.bindEq fun b => .ok rfl

variable {State : Type} {R : State → State → Prop} {env env' : Surroundings State}

/-- The surroundings differ in how cells are settled and calls are noted, and these are in
lockstep. -/
structure SameSurroundings (R : State → State → Prop) (env env' : Surroundings State) : Prop where
  rangeLimit : env'.rangeLimit = env.rangeLimit
  functions : env'.functions = env.functions
  settle : ∀ c, EvaluatesAlike R (Option.Rel SameCell) (env.settle c) (env'.settle c)
  noteCall : ∀ key vs, EvaluatesAlike R Eq (env.noteCall key vs) (env'.noteCall key vs)

theorem valueOf_alike (address address' : String) {cell cell' : Option Cell}
    (h : Option.Rel SameCell cell cell') :
    EvaluatesAlike R Eq (valueOf address cell) (valueOf address' cell') := by
  cases h with
  | none => exact .pure rfl
  | @some cell cell' h =>
    obtain ⟨hValue, hFailed, -⟩ := h
    cases hError : cell.error <;> cases hError' : cell'.error <;>
      simp only [hError, hError', Option.isSome_none, Option.isSome_some, reduceCtorEq] at hFailed
    · simpa only [valueOf, hError, hError'] using .pure hValue.symm
    · simpa only [valueOf, hError, hError'] using
        fail_alike (FormulaFault.sameClass_dependentCell _ _ _ _)

theorem members_alike (h : SameSurroundings R env env') (cs : List Coordinate) :
    EvaluatesAlike R Eq (members env cs) (members env' cs) := by
  induction cs with
  | nil => exact .pure rfl
  | cons c cs ih =>
    rw [members, members]
    refine (h.settle c).bind fun cell cell' hCell => ?_
    refine (valueOf_alike c.address c.address hCell).bindEq fun v => ih.bindEq fun vs => ?_
    cases v <;> exact .pure rfl

theorem operand_alike (fault : Value → FormulaFault) (v : Value) :
    EvaluatesAlike R Eq (operand fault v) (operand fault v) := by
  unfold operand
  cases v.number? with
  | some n => exact .pure rfl
  | none => exact .ite Iff.rfl (fun _ => fail_alike (.refl _)) fun _ => .throw (.refl _)

theorem callFunction_alike {name name' : String} (h : SameName name.toList name'.toList)
    (f : Function) (vs : List Value) :
    EvaluatesAlike R Eq (callFunction name f vs) (callFunction name' f vs) := by
  unfold callFunction
  cases f vs with
  | ok v => exact .pure rfl
  | error fault =>
    cases fault with
    | formula fault => exact fail_alike (.refl fault)
    | numeric | missingArgument | raised =>
      exact fail_alike (FormulaFault.sameClass_functionFailed h _)

theorem range_alike (h : SameSurroundings R env env') {first first' last last' : String}
    (hFirst : SameAddress first.toList first'.toList)
    (hLast : SameAddress last.toList last'.toList) :
    EvaluatesAlike R Eq ((range first last).evaluate env) ((range first' last').evaluate env') := by
  rw [evaluate, evaluate, h.rangeLimit]
  refine (lift_alike (corners_agrees hFirst hLast)).bindEq fun ⟨a, b⟩ => ?_
  refine .ite Iff.rfl (fun _ => ?_) fun _ => ?_
  · refine .ite Iff.rfl (fun _ => ?_) fun _ => .throw (.refl _)
    exact fail_alike (FormulaFault.sameClass_rangeTooLarge _ _ _ _)
  · exact (members_alike h _).bindEq fun vs => .pure rfl

mutual

theorem evaluate_alike (h : SameSurroundings R env env') : {f f' : Formula} → f.Respells f' →
    EvaluatesAlike R Eq (f.evaluate env) (f'.evaluate env')
  | _, _, .text quoted => .pure rfl
  | _, _, .number digits => by
    rw [evaluate, evaluate]
    exact (numeric_alike (Number.ofDigits digits)).bindEq fun n => .pure rfl
  | _, _, .cell hAddress => by
    rw [evaluate, evaluate]
    refine (lift_alike hAddress.ofAddress_agrees).bindEq fun c => ?_
    exact (h.settle c).bind fun _ _ => valueOf_alike _ _
  | _, _, .range hFirst hLast => range_alike h hFirst hLast
  | _, _, .negative hOperand => by
    rw [evaluate, evaluate]
    exact (evaluate_alike h hOperand).bindEq fun v => (operand_alike _ v).bindEq fun n => .pure rfl
  | _, _, .call hName hArguments => by
    rw [evaluate, evaluate, h.functions, hName.byName?]
    cases env.functions.byName? _ with
    | none => exact fail_alike (FormulaFault.sameClass_unknownFunction _ _ _)
    | some g =>
      refine (evaluateAll_alike h hArguments).bindEq fun vs => ?_
      rw [hName.lower]
      exact (h.noteCall _ vs).andThen (callFunction_alike hName g vs)
  | _, _, .binary hLeft hRight => by
    rw [evaluate, evaluate]
    refine (evaluate_alike h hLeft).bindEq fun v => (operand_alike _ v).bindEq fun a => ?_
    refine (evaluate_alike h hRight).bindEq fun w => (operand_alike _ w).bindEq fun b => ?_
    exact (lift_alike_refl _).bindEq fun n => .pure rfl

theorem evaluateAll_alike (h : SameSurroundings R env env') : {fs fs' : List Formula} →
    RespellsAll fs fs' → EvaluatesAlike R Eq (evaluateAll env fs) (evaluateAll env' fs')
  | _, _, .nil => .pure rfl
  | _, _, .cons hFirst hRest => by
    rw [evaluateAll, evaluateAll]
    refine (evaluate_alike h hFirst).bindEq fun v => ?_
    exact (evaluateAll_alike h hRest).bindEq fun vs => .pure rfl

end

/-! ## References -/

theorem orNone_agrees {found found' : Except Failure (List Coordinate)}
    (h : Agrees Failure.SameClass Eq found found') :
    Agrees Failure.SameClass Eq (orNone found) (orNone found') := by
  cases h with
  | ok h => exact .ok h
  | error h =>
    cases h with
    | formula => exact .ok rfl
    | numeric fault => exact .error (.numeric fault)
    | tooDeep => exact .error .tooDeep

theorem append_agrees {x x' y y' : Except Failure (List Coordinate)}
    (hx : Agrees Failure.SameClass Eq x x') (hy : Agrees Failure.SameClass Eq y y') :
    Agrees Failure.SameClass Eq (do return (← x) ++ (← y)) (do return (← x') ++ (← y')) :=
  hx.bindEq fun _ => hy.bindEq fun _ => .ok rfl

mutual

theorem references_agrees (limit : Option Int) : {f f' : Formula} → f.Respells f' →
    Agrees Failure.SameClass Eq (f.references limit) (f'.references limit)
  | _, _, .text quoted => .ok rfl
  | _, _, .number digits => .ok rfl
  | _, _, .cell hAddress => by
    rw [references, references]
    apply orNone_agrees
    exact hAddress.ofAddress_agrees.bindEq fun c => .ok rfl
  | _, _, .range hFirst hLast => by
    rw [references, references]
    apply orNone_agrees
    exact (corners_agrees hFirst hLast).bindEq fun ends => .ok rfl
  | _, _, .negative hOperand => by
    rw [references, references]
    exact references_agrees limit hOperand
  | _, _, .call _ hArguments => by
    rw [references, references]
    exact referencesOfAll_agrees limit hArguments
  | _, _, .binary hLeft hRight => by
    rw [references, references]
    exact append_agrees (references_agrees limit hLeft) (references_agrees limit hRight)

theorem referencesOfAll_agrees (limit : Option Int) : {fs fs' : List Formula} →
    RespellsAll fs fs' →
    Agrees Failure.SameClass Eq (referencesOfAll limit fs) (referencesOfAll limit fs')
  | _, _, .nil => .ok rfl
  | _, _, .cons hFirst hRest => by
    rw [referencesOfAll, referencesOfAll]
    exact append_agrees (references_agrees limit hFirst) (referencesOfAll_agrees limit hRest)

end

end Formula
end Spreadsheet
