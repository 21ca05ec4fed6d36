import Mathlib

/-!
# Texts in order

Texts sorted by their characters, with neighbours that are the same kept once: the result has the
same members, each once, in strict order.
-/

set_option autoImplicit false

namespace Spreadsheet

namespace Text

theorem notAfter_iff {s t : String} : (!decide (t < s)) = true ↔ s ≤ t := by
  rw [Bool.not_eq_true', decide_eq_false_iff_not, String.not_lt]

theorem notAfter_trans {s t u : String} (hst : (!decide (t < s)) = true)
    (htu : (!decide (u < t)) = true) : (!decide (u < s)) = true := by
  rw [notAfter_iff] at hst htu ⊢
  exact String.le_trans hst htu

theorem notAfter_total (s t : String) : (!decide (t < s) || !decide (s < t)) = true := by
  rw [Bool.or_eq_true, notAfter_iff, notAfter_iff]
  exact String.le_total s t

end Text

/-! ## Neighbours that are the same -/

section Repetitions

variable {α : Type} {xs : List α} {a : α}

/-- What was collected before stands in front. -/
theorem eraseReps_loop [BEq α] (a : α) (xs collected : List α) :
    List.eraseRepsBy.loop (· == ·) a xs collected =
      collected.reverse ++ List.eraseRepsBy.loop (· == ·) a xs [] := by
  induction xs generalizing a collected with
  | nil => simp [List.eraseRepsBy.loop]
  | cons b xs ih =>
    rw [List.eraseRepsBy.loop, List.eraseRepsBy.loop]
    cases a == b with
    | true => exact ih a collected
    | false =>
      simp only
      rw [ih b (a :: collected), ih b [a], List.reverse_cons, List.append_assoc]
      rfl

theorem eraseReps_cons_cons [BEq α] [LawfulBEq α] (a b : α) (xs : List α) :
    (a :: b :: xs).eraseReps =
      if a == b then (b :: xs).eraseReps else a :: (b :: xs).eraseReps := by
  rw [List.eraseReps, List.eraseReps, List.eraseRepsBy, List.eraseRepsBy, List.eraseRepsBy.loop]
  cases h : a == b with
  | true =>
    rw [beq_iff_eq.mp h]
    rfl
  | false => exact eraseReps_loop b xs [a]

theorem mem_eraseReps [BEq α] [LawfulBEq α] : a ∈ xs.eraseReps ↔ a ∈ xs := by
  induction xs with
  | nil => rfl
  | cons b xs ih =>
    cases xs with
    | nil => rfl
    | cons c xs =>
      rw [eraseReps_cons_cons, List.mem_cons, ← ih]
      cases h : b == c with
      | true =>
        rw [if_pos rfl, ih, ← beq_iff_eq.mp h, List.mem_cons]
        tauto
      | false => rw [if_neg Bool.false_ne_true, List.mem_cons]

theorem pairwise_eraseReps [LinearOrder α] (h : xs.Pairwise (· ≤ ·)) :
    xs.eraseReps.Pairwise (· < ·) := by
  induction xs with
  | nil => exact .nil
  | cons b xs ih =>
    cases xs with
    | nil => exact List.pairwise_singleton _ b
    | cons c xs =>
      obtain ⟨hHead, hTail⟩ := List.pairwise_cons.mp h
      rw [eraseReps_cons_cons]
      cases hSame : b == c with
      | true => exact ih hTail
      | false =>
        have hLess : b < c :=
          lt_of_le_of_ne (hHead c List.mem_cons_self) (beq_eq_false_iff_ne.mp hSame)
        apply List.pairwise_cons.mpr
        refine ⟨fun d hd => ?_, ih hTail⟩
        rcases List.mem_cons.mp (mem_eraseReps.mp hd) with rfl | hd
        · exact hLess
        · exact hLess.trans_le ((List.pairwise_cons.mp hTail).1 d hd)

end Repetitions

namespace Text

variable {ss : List String} {s : String}

theorem mem_sortedOnce : s ∈ (ss.mergeSort fun a b => !decide (b < a)).eraseReps ↔ s ∈ ss := by
  rw [mem_eraseReps, List.mem_mergeSort]

theorem pairwise_sortedOnce (ss : List String) :
    ((ss.mergeSort fun a b => !decide (b < a)).eraseReps).Pairwise (· < ·) := by
  have hTrans (a b c : String) (hab : (!decide (b < a)) = true) (hbc : (!decide (c < b)) = true) :
      (!decide (c < a)) = true := notAfter_trans hab hbc
  have hOrdered := List.pairwise_mergeSort hTrans notAfter_total ss
  exact pairwise_eraseReps (hOrdered.imp notAfter_iff.mp)

end Text
end Spreadsheet
