import Spreadsheet.Function.Builtin
import Spreadsheet.Proofs.Evaluation.Marks
import Spreadsheet.Proofs.Evaluation.OwnFailure

/-!
# Faults of the built-in functions

A built-in function that reports a fault of the formula reports one under its own name, and words it
like no circular reference.
-/

set_option autoImplicit false

namespace Spreadsheet.Builtin

variable {α β : Type}

/-- Every fault that is reported as it is names the function that failed, in words of its own. -/
def NamesFunction (x : Except FunctionFault α) : Prop :=
  ∀ fault, x = .error (.formula fault) →
    ∃ name message, fault = .functionFailed name message ∧ PartsFromMark message

theorem namesFunction_ok (a : α) : NamesFunction (.ok a : Except FunctionFault α) := by
  intro fault h
  cases h

theorem namesFunction_fail (name : String) {message : String} (hMessage : PartsFromMark message) :
    NamesFunction (fail name message : Except FunctionFault α) := by
  intro fault h
  cases h
  exact ⟨name, message, rfl, hMessage⟩

theorem namesFunction_numeric (r : Except NumericFault α) : NamesFunction (numeric r) := by
  intro fault h
  cases r <;> cases h

theorem NamesFunction.bind {x : Except FunctionFault α} {k : α → Except FunctionFault β}
    (h : NamesFunction x) (hk : ∀ a, NamesFunction (k a)) : NamesFunction (x >>= k) := by
  intro fault hFault
  cases x with
  | ok a => exact hk a fault hFault
  | error e =>
    cases hFault
    exact h fault rfl

theorem asNumbers_namesFunction {name : String} (hName : PartsFromMark name) (vs : List Value) :
    NamesFunction (asNumbers name vs) := by
  induction vs with
  | nil => exact namesFunction_ok _
  | cons v vs ih =>
    rw [asNumbers]
    split
    · split
      · exact namesFunction_ok _
      · rename_i hRest
        intro fault h
        cases h
        exact ih fault hRest
    · split
      · exact namesFunction_fail _ ((hName.append _).append _)
      · intro fault h
        cases h

theorem numbers_namesFunction {name : String} (hName : PartsFromMark name)
    (arguments : List Value) : NamesFunction (numbers name arguments) :=
  asNumbers_namesFunction hName _

theorem sum_namesFunction (arguments : List Value) : NamesFunction (sum arguments) :=
  (numbers_namesFunction (by decide) _).bind fun _ =>
    (namesFunction_numeric _).bind fun _ => namesFunction_ok _

theorem average_namesFunction (arguments : List Value) : NamesFunction (average arguments) := by
  refine (numbers_namesFunction (by decide) _).bind fun ns => ?_
  split
  · exact namesFunction_fail _ (by decide)
  · exact (namesFunction_numeric _).bind fun _ =>
      (namesFunction_numeric _).bind fun _ => namesFunction_ok _

theorem min_namesFunction (arguments : List Value) : NamesFunction (min arguments) := by
  refine (numbers_namesFunction (by decide) _).bind fun ns => ?_
  cases ns with
  | nil => exact namesFunction_fail _ (by decide)
  | cons n ns => exact namesFunction_ok _

theorem max_namesFunction (arguments : List Value) : NamesFunction (max arguments) := by
  refine (numbers_namesFunction (by decide) _).bind fun ns => ?_
  cases ns with
  | nil => exact namesFunction_fail _ (by decide)
  | cons n ns => exact namesFunction_ok _

theorem missingArgument_namesFunction :
    NamesFunction (.error .missingArgument : Except FunctionFault α) := by
  intro fault h
  cases h

theorem abs_namesFunction (arguments : List Value) : NamesFunction (abs arguments) := by
  unfold abs
  split
  · exact namesFunction_fail _ (by decide)
  · refine (numbers_namesFunction (by decide) _).bind fun ns => ?_
    cases ns with
    | nil => exact missingArgument_namesFunction
    | cons n ns => exact namesFunction_ok _

theorem round_namesFunction (arguments : List Value) : NamesFunction (round arguments) := by
  unfold round
  split
  · exact namesFunction_fail _ (by decide)
  · refine (numbers_namesFunction (by decide) _).bind fun ns => ?_
    split
    · exact missingArgument_namesFunction
    · exact (namesFunction_numeric _).bind fun _ =>
        (namesFunction_numeric _).bind fun _ => namesFunction_ok _
    · exact (namesFunction_numeric _).bind fun _ => namesFunction_ok _

theorem concat_namesFunction (arguments : List Value) : NamesFunction (concat arguments) :=
  (namesFunction_numeric _).bind fun _ => namesFunction_ok _

theorem registry_namesFunction {key : String} {f : Function} (h : (key, f) ∈ registry.entries)
    (arguments : List Value) : NamesFunction (f arguments) := by
  simp only [registry, List.mem_cons, Prod.mk.injEq, List.not_mem_nil, or_false] at h
  rcases h with
    ⟨-, rfl⟩ | ⟨-, rfl⟩ | ⟨-, rfl⟩ | ⟨-, rfl⟩ | ⟨-, rfl⟩ | ⟨-, rfl⟩ | ⟨-, rfl⟩ | ⟨-, rfl⟩
  · exact sum_namesFunction arguments
  · exact average_namesFunction arguments
  · exact min_namesFunction arguments
  · exact max_namesFunction arguments
  · exact namesFunction_ok _
  · exact abs_namesFunction arguments
  · exact round_namesFunction arguments
  · exact concat_namesFunction arguments

theorem functionFailed_of_registry {name : String} {f : Function}
    (hFunction : registry.byName? name = some f) {arguments : List Value} {fault : FormulaFault}
    (hFault : f arguments = .error (.formula fault)) :
    ∃ function message, fault = .functionFailed function message ∧ PartsFromMark message := by
  obtain ⟨before, rest, hEntries, -⟩ := List.lookup_eq_some_iff.mp hFunction
  have hMem : (Text.lower name, f) ∈ registry.entries := by simp [hEntries]
  exact registry_namesFunction hMem arguments fault hFault

/-- No built-in function reports a circular reference. -/
theorem registry_reportsNoCycle : registry.ReportsNoCycle := by
  intro name f hFunction arguments fault hFault
  obtain ⟨_, _, rfl, -⟩ := functionFailed_of_registry hFunction hFault
  rfl

/-- No message of a built-in function is marked as one of a circular reference. -/
theorem isMarked_of_registry {fault : FormulaFault} (h : registry.Reports fault) :
    isMarked fault.message = false := by
  obtain ⟨_, _, _, hFunction, hFault⟩ := h
  obtain ⟨function, message, rfl, hMessage⟩ := functionFailed_of_registry hFunction hFault
  exact FormulaFault.isMarked_functionFailed function hMessage.isMarked

end Spreadsheet.Builtin
