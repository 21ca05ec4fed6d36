import Spreadsheet.Fault
import Spreadsheet.Proofs.Formula.Classes

/-!
# The mark of a circular reference

A circular reference is told apart by the first words of its message. No other message of a formula
starts with them: most start with words of their own, and where a function failed the message starts
with the name of the function, which is a single word.
-/

set_option autoImplicit false

namespace Spreadsheet

open Lexer

/-- The message is marked as one of a circular reference. -/
def isMarked (message : String) : Bool :=
  FormulaFault.circularMark.toList.isPrefixOf message.toList

/-- Words that differ from the mark somewhere, so that no longer message with them is marked. -/
def PartsFromMark (text : String) : Prop :=
  ¬ FormulaFault.circularMark.toList <+: text.toList ∧
    ¬ text.toList <+: FormulaFault.circularMark.toList

instance (text : String) : Decidable (PartsFromMark text) :=
  inferInstanceAs (Decidable (_ ∧ _))

theorem PartsFromMark.append {text : String} (h : PartsFromMark text) (rest : String) :
    PartsFromMark (text ++ rest) := by
  have hText : text.toList <+: (text ++ rest).toList := by
    rw [String.toList_append]
    exact List.prefix_append _ _
  refine ⟨fun hMark => ?_, fun hMessage => h.2 (hText.trans hMessage)⟩
  exact (List.prefix_or_prefix_of_prefix hMark hText).elim h.1 h.2

theorem PartsFromMark.join {text : String} (h : PartsFromMark text) (rest : List String) :
    PartsFromMark (String.join (text :: rest)) := by
  rw [String.join_cons]
  exact h.append _

theorem PartsFromMark.isMarked {message : String} (h : PartsFromMark message) :
    isMarked message = false := by
  rw [Spreadsheet.isMarked, Bool.eq_false_iff]
  exact fun hMarked => h.1 (List.isPrefixOf_iff_prefix.mp hMarked)

/-- The name of a function ends before a colon, the first word of the mark before a space. -/
theorem isMarked_named {name : String} (h : AreLetters name.toList) (text : String) :
    isMarked (name ++ ": " ++ text) = false := by
  rw [isMarked, Bool.eq_false_iff]
  intro hMarked
  obtain ⟨rest, hRest⟩ := List.isPrefixOf_iff_prefix.mp hMarked
  have hName : (name ++ ": " ++ text).toList.dropWhile isLetter = ':' :: ' ' :: text.toList := by
    rw [String.toList_append, String.toList_append, List.append_assoc]
    apply dropWhile_run h
    rintro _ ⟨⟩
    rfl
  have hMark : (FormulaFault.circularMark.toList ++ rest).dropWhile isLetter =
      ' ' :: ("cell reference".toList ++ rest) := rfl
  rw [← hRest, hMark] at hName
  cases hName

namespace FormulaFault

theorem isMarked_circular (path : List Coordinate) : isMarked (circular path).message = true := by
  rw [message, isMarked, String.join_cons, String.toList_append, List.isPrefixOf_iff_prefix]
  exact List.prefix_append _ _

theorem isMarked_functionFailed (name : String) {text : String} (h : isMarked text = false) :
    isMarked (functionFailed name text).message = false := by
  by_cases hEmpty : (text == "") = true
  · have hMessage : (functionFailed name text).message =
        String.join ["Unknown function: ", Text.quoted name] := if_pos hEmpty
    have hStart : PartsFromMark "Unknown function: " := by decide
    rw [hMessage]
    exact (hStart.join _).isMarked
  · have hMessage : (functionFailed name text).message = text := if_neg hEmpty
    rwa [hMessage]

/-- Of the messages that no function words, only those of circular references are marked. -/
theorem isMarked_message {fault : FormulaFault}
    (hNot : ∀ name text, fault ≠ functionFailed name text) :
    isMarked fault.message = fault.isCircular := by
  cases fault with
  | circular path => exact isMarked_circular path
  | functionFailed name text => exact absurd rfl (hNot name text)
  | parsing fault =>
    have hStart : PartsFromMark "Formula parse error: " := by decide
    exact ((hStart.append _).append _).isMarked
  | malformedAddress address =>
    have hStart : PartsFromMark "Invalid cell address: " := by decide
    exact (hStart.join _).isMarked
  | rowZero address =>
    have hStart : PartsFromMark "Invalid cell address: " := by decide
    exact (hStart.join _).isMarked
  | outsideGrid c =>
    have hStart : PartsFromMark "Invalid coordinate: " := by decide
    exact (hStart.join _).isMarked
  | unknownFunction name names =>
    have hStart : PartsFromMark "Unknown function " := by decide
    exact (hStart.join _).isMarked
  | notNumeric symbol operand =>
    have hStart : PartsFromMark "Invalid argument for operator " := by decide
    exact (hStart.join _).isMarked
  | notNegatable operand =>
    have hStart : PartsFromMark "Cannot get negative of non-number " := by decide
    exact (hStart.join _).isMarked
  | divisionByZero => rfl
  | dependentCell address cause =>
    have hStart : PartsFromMark "Error found in dependent cell " := by decide
    exact (hStart.join _).isMarked
  | rangeTooLarge range size limit =>
    have hStart : PartsFromMark "Range " := by decide
    exact (hStart.join _).isMarked
  | nestedTooDeeply address =>
    cases address with
    | none => rfl
    | some address =>
      have hStart : PartsFromMark "Formula evaluation nested too deeply (resolving " := by decide
      exact (hStart.join _).isMarked

end FormulaFault
end Spreadsheet
