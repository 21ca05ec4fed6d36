import Mathlib.Data.List.TakeWhile
import Spreadsheet.Text.Blank

/-!
# Blanks at the ends

What is left of a text without the blanks at its ends, and what is left of it without the ones at
its end alone.
-/

set_option autoImplicit false

namespace Spreadsheet.Text

variable {c : Char} {cs body before after : List Char}

def AreBlank (cs : List Char) : Prop := ∀ c ∈ cs, isBlank c = true

/-- Drops the blank characters at the end. -/
def stripEnd (cs : List Char) : List Char := (cs.reverse.dropWhile isBlank).reverse

theorem strip_eq_stripEnd (cs : List Char) : strip cs = stripEnd (cs.dropWhile isBlank) := rfl

theorem dropWhile_of_head (h : ∀ c ∈ cs.head?, isBlank c = false) : cs.dropWhile isBlank = cs := by
  cases cs with
  | nil => rfl
  | cons c cs => exact List.dropWhile_cons_of_neg (by simp [h c rfl])

theorem stripEnd_of_last (h : ∀ c ∈ cs.getLast?, isBlank c = false) : stripEnd cs = cs := by
  rw [← List.head?_reverse] at h
  rw [stripEnd, dropWhile_of_head h, List.reverse_reverse]

theorem strip_of_edges (hFirst : ∀ c ∈ cs.head?, isBlank c = false)
    (hLast : ∀ c ∈ cs.getLast?, isBlank c = false) : strip cs = cs := by
  rw [strip_eq_stripEnd, dropWhile_of_head hFirst, stripEnd_of_last hLast]

theorem AreBlank.dropWhile (h : AreBlank cs) : cs.dropWhile isBlank = [] :=
  List.dropWhile_eq_nil_iff.mpr h

/-- Nothing is left exactly when all characters are blank. -/
theorem strip_eq_nil : strip cs = [] ↔ AreBlank cs := by
  constructor
  · intro h
    rw [strip, List.reverse_eq_nil_iff, List.dropWhile_eq_nil_iff] at h
    by_contra hSome
    have hRest : cs.dropWhile isBlank ≠ [] := mt List.dropWhile_eq_nil_iff.mp hSome
    obtain ⟨c, r, hcs⟩ := List.exists_cons_of_ne_nil hRest
    have hFirst := List.head?_dropWhile_not isBlank cs
    rw [hcs] at h hFirst
    have hBlank := h c (List.mem_reverse.mpr List.mem_cons_self)
    rw [List.head?_cons] at hFirst
    cases hBlank.symm.trans hFirst
  · intro h
    rw [strip_eq_stripEnd, h.dropWhile]
    rfl

/-! ## Texts with more around them -/

theorem stripEnd_append_blank (h : AreBlank after) (cs : List Char) :
    stripEnd (cs ++ after) = stripEnd cs := by
  have hReverse : ∀ c ∈ after.reverse, isBlank c = true := fun c hc => h c (List.mem_reverse.mp hc)
  rw [stripEnd, List.reverse_append, List.dropWhile_append_of_pos hReverse, stripEnd]

theorem stripEnd_append (h : stripEnd body ≠ []) (cs : List Char) :
    stripEnd (cs ++ body) = cs ++ stripEnd body := by
  have hSome : (body.reverse.dropWhile isBlank).isEmpty = false :=
    List.isEmpty_eq_false_iff.mpr (mt List.reverse_eq_nil_iff.mpr h)
  rw [stripEnd, List.reverse_append, List.dropWhile_append, hSome, if_neg Bool.false_ne_true,
    List.reverse_append, List.reverse_reverse, stripEnd]

theorem strip_cons (h : isBlank c = false) (cs : List Char) :
    strip (c :: cs) = c :: stripEnd cs := by
  rw [strip_eq_stripEnd, List.dropWhile_cons_of_neg (by simp [h])]
  by_cases hRest : stripEnd cs = []
  · have hBlank : AreBlank cs := fun d hd => by
      rw [stripEnd, List.reverse_eq_nil_iff, List.dropWhile_eq_nil_iff] at hRest
      exact hRest d (List.mem_reverse.mpr hd)
    have hOne : stripEnd [c] = [c] := stripEnd_of_last fun d hd => by
      rw [List.getLast?_singleton, Option.mem_some_iff] at hd
      exact hd ▸ h
    rw [← List.singleton_append, stripEnd_append_blank hBlank, hOne, hRest]
  · exact stripEnd_append hRest [c]

/-- What ends in no blank keeps all of it behind whatever is left in front of it. -/
theorem strip_append (hFirst : ∀ c ∈ body.head?, isBlank c = false)
    (hLast : ∀ c ∈ body.getLast?, isBlank c = false) (hNonempty : body ≠ []) (l : List Char) :
    strip (l ++ body) = l.dropWhile isBlank ++ body := by
  have hBody : stripEnd body ≠ [] := by rwa [stripEnd_of_last hLast]
  rw [strip_eq_stripEnd, List.dropWhile_append, dropWhile_of_head hFirst]
  split_ifs with hEmpty
  · rw [List.isEmpty_iff.mp hEmpty, List.nil_append, stripEnd_of_last hLast]
  · rw [stripEnd_append hBody, stripEnd_of_last hLast]

/-- Blanks around a text make no difference. -/
theorem strip_surrounded (hBefore : AreBlank before) (hAfter : AreBlank after) (cs : List Char) :
    strip (before ++ cs ++ after) = strip cs := by
  rw [strip_eq_stripEnd, List.append_assoc, List.dropWhile_append_of_pos hBefore,
    List.dropWhile_append]
  split_ifs with hEmpty
  · rw [hAfter.dropWhile, strip_eq_stripEnd, List.isEmpty_iff.mp hEmpty]
  · rw [stripEnd_append_blank hAfter, strip_eq_stripEnd]

/-- A text that is not blank is left behind the blanks in front of it. -/
theorem stripEnd_eq (h : strip cs ≠ []) : stripEnd cs = cs.takeWhile isBlank ++ strip cs := by
  rw [strip_eq_stripEnd] at h ⊢
  rw [← stripEnd_append h, List.takeWhile_append_dropWhile]

end Spreadsheet.Text
